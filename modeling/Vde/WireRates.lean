import Vde.Lib.Timeval
import Vde.Markov
import Vde.Wirefilter

/-!
# The timeout of the main loop of wirefilter, speed and bandwidth

Before each `poll` the main loop computes how long it may sleep: until the first packet of the delay queue is
due, until the next transition of the Markov chain, and until an input that the speed limit keeps from being
read is read again. `delay` is an `unsigned long long`, the other waits are of type `int`, and so is the
timeout of `poll`.
-/

namespace Vde

structure TimeOfDay where
  sec : Nat
  usec : Nat
  usec_lt : usec < 1000000

def TimeOfDay.timeval (t : TimeOfDay) : Timeval := ⟨t.sec, t.usec⟩

lemma TimeOfDay.normal (t : TimeOfDay) : t.timeval.Normal := by
  have husec := t.usec_lt
  constructor
  · exact Int.natCast_nonneg _
  rw [TimeOfDay.timeval]
  exact Int.ofNat_lt.mpr husec

def TimeOfDay.ms (t : TimeOfDay) : Nat := t.sec * 1000 + t.usec / 1000

/-- What the main loop looks at; `speed` is `WFVAL(markov_current, SPEED, dir).value`. -/
structure FilterTimers where
  queue : DelayQueue
  markov : MarkovModel
  speed : Dir → ℚ
  nextspeed : Dir → TimeOfDay
  ndirs : Nat

/-- A `-1` returned as an `unsigned long long`. -/
def noDelay : Nat := 18446744073709551615

def nextms (now : Nat) (q : DelayQueue) : Nat :=
  if 0 < q.npq then
    if (q.pqh 1).when > now then (q.pqh 1).when - now else 0
  else noDelay

/-- The difference is an `unsigned long long`, so the test for a time in the past never succeeds. -/
def markovms (now : Nat) (s : MarkovModel) : Int := if s.numnodes > 1 then toInt32 (s.next - now) else -1

def shorten (x : Int) (delay : Nat) : Nat := if x < delay then x.toNat else delay

def speeddelay (nextspeed now : Timeval) : Int :=
  let tv := timersub nextspeed now
  toInt32 (tv.sec * 1000 + tv.usec.tdiv 1000)

/-- Whether the speed limit takes `POLLIN` from the events of an input; `tv` is what is compared with
`nextspeed`. -/
def speedMasks (dir : Dir) (tv : Timeval) (now : TimeOfDay) (s : FilterTimers) : Bool :=
  0 < s.speed dir && timerLt tv (s.nextspeed dir).timeval && 0 < speeddelay (s.nextspeed dir).timeval now.timeval

/-- The inputs that lose `POLLIN`. From right to left `tv` is compared before it is set, with the value
`stale`. -/
def inputMasked (stale : Timeval) (now : TimeOfDay) (s : FilterTimers) : Dir → Bool
  | .LR => speedMasks .LR now.timeval now s
  | .RL => s.ndirs > 1 && speedMasks .RL stale now s

/-- `delay` at the top of the main loop. -/
def pollDelay (stale : Timeval) (now : TimeOfDay) (s : FilterTimers) : Nat :=
  let delay := nextms now.ms s.queue
  let markovdelay := markovms now.ms s.markov
  let delay := if 0 ≤ markovdelay then shorten markovdelay delay else delay
  let delay :=
    if inputMasked stale now s .LR then shorten (speeddelay (s.nextspeed .LR).timeval now.timeval) delay else delay
  if inputMasked stale now s .RL then shorten (speeddelay (s.nextspeed .RL).timeval now.timeval) delay else delay

structure PollArgs where
  masked : Dir → Bool
  timeout : Int

def pollArgs (stale : Timeval) (now : TimeOfDay) (s : FilterTimers) : PollArgs :=
  { masked := inputMasked stale now s, timeout := toInt32 (pollDelay stale now s) }

/-! ## Speed and bandwidth

The loop of `handle_packet` over the copies of a packet. The settings and the values drawn from them are exact.
What comes before the loop, the MTU, the losses and the duplication, decides only how many copies there are. -/

inductive Algo where
  | uniform
  | gaussNormal
  deriving DecidableEq, Repr

structure Wirevalue where
  value : ℚ
  plus : ℚ
  alg : Algo

inductive WireTag where
  | DELAY
  | BAND
  | SPEED
  | CHANBUFSIZE
  deriving DecidableEq, Repr

abbrev WireValues := WireTag → Dir → Wirevalue

def maxWirevalue (wv : Wirevalue) : ℚ := wv.value + wv.plus

/-- What `drand48` gives for one value: the factor of `plus` for either algorithm. -/
structure Variate where
  uniform : ℚ
  gauss : ℚ

def computeWirevalue (wv : Wirevalue) (r : Variate) : ℚ :=
  if wv.plus = 0 then wv.value
  else
    match wv.alg with
    | .uniform => wv.value + wv.plus * r.uniform
    | .gaussNormal => wv.value + wv.plus * r.gauss

def sizeMicros (size : Nat) : Nat := size * 1000000 % 4294967296

inductive CopyEnd where
  | returned
  | sigfpe
  deriving DecidableEq, Repr

def commtime (size : Nat) (val : ℚ) : Except CopyEnd Nat :=
  if toUnsigned val = 0 then .error .sigfpe else .ok (sizeMicros size / toUnsigned val)

/-- The three lines that add `commtime` to `nextspeed` or `nextband`. -/
def Timeval.advance (t : Timeval) (commtime : Nat) : Timeval :=
  let usec := t.usec + commtime
  ⟨t.sec + usec.tdiv 1000000, usec.tmod 1000000⟩

structure CopyDraws where
  capacity : Variate
  speed : Variate
  band : Variate
  delay : Variate
  speedNow : TimeOfDay
  bandNow : TimeOfDay
  queueNow : TimeOfDay

def speedStage (w : WireValues) (dir : Dir) (size : Nat) (c : CopyDraws) (nextspeed : Timeval) :
    Except CopyEnd (Int × Timeval) :=
  if 0 < maxWirevalue (w .SPEED dir) then
    let speedval := computeWirevalue (w .SPEED dir) c.speed
    if speedval ≤ 0 then .error .returned
    else do
      let commtime ← commtime size speedval
      let tv := c.speedNow.timeval
      let nextspeed := if timerLt nextspeed tv then tv else nextspeed
      return (((commtime / 1000 : Nat) : Int), nextspeed.advance commtime)
  else return (0, nextspeed)

def bandStage (w : WireValues) (dir : Dir) (size : Nat) (c : CopyDraws) (banddelay : Int) (nextband : Timeval) :
    Except CopyEnd (Int × Timeval) :=
  if 0 < maxWirevalue (w .BAND dir) then
    let bandval := computeWirevalue (w .BAND dir) c.band
    if bandval ≤ 0 then .error .returned
    else do
      let commtime ← commtime size bandval
      let tv := c.bandNow.timeval
      if timerLt nextband tv then return (((commtime / 1000 : Nat) : Int), tv.advance commtime)
      else
        let tv := timersub nextband tv
        return (toInt32 (tv.sec * 1000 + (tv.usec + commtime).tdiv 1000), nextband.advance commtime)
  else return (banddelay, nextband)

/-- What `handle_packet` works on; `sent` are the calls of `writepacket`, and `ended` tells how a copy has ended
the loop. -/
structure RateState where
  queue : DelayQueue
  nextspeed : Dir → Timeval
  nextband : Dir → Timeval
  sent : List (Dir × List UInt8)
  ended : Option CopyEnd

def delayStage (w : WireValues) (dir : Dir) (buf : List UInt8) (c : CopyDraws) (banddelay : Int) (s : RateState) :
    RateState :=
  if 0 ≤ banddelay then
    if 0 < banddelay ∨ 0 < maxWirevalue (w .DELAY dir) then
      let delval := computeWirevalue (w .DELAY dir) c.delay
      let delval : ℚ := if 0 ≤ delval then delval + banddelay else banddelay
      if 0 < delval then
        { s with queue := packetEnqueue s.queue c.queueNow.ms dir buf (toSize (doubleToInt delval)) }
      else { s with sent := s.sent ++ [(dir, buf)] }
    else { s with sent := s.sent ++ [(dir, buf)] }
  else s

def overCapacity (w : WireValues) (dir : Dir) (size : Nat) (c : CopyDraws) (s : RateState) : Prop :=
  0 < maxWirevalue (w .CHANBUFSIZE dir) ∧
    computeWirevalue (w .CHANBUFSIZE dir) c.capacity < (s.queue.delayBufsize dir + size : Int)

instance (w : WireValues) (dir : Dir) (size : Nat) (c : CopyDraws) (s : RateState) :
    Decidable (overCapacity w dir size c s) := inferInstanceAs (Decidable (_ ∧ _))

def handleCopy (w : WireValues) (dir : Dir) (buf : List UInt8) (s : RateState) (c : CopyDraws) : RateState :=
  if s.ended.isSome then s
  else if overCapacity w dir buf.length c s then { s with ended := some .returned }
  else
    match speedStage w dir buf.length c (s.nextspeed dir) with
    | .error e => { s with ended := some e }
    | .ok (banddelay, nextspeed) =>
      let s := { s with nextspeed := Function.update s.nextspeed dir nextspeed }
      match bandStage w dir buf.length c banddelay (s.nextband dir) with
      | .error e => { s with ended := some e }
      | .ok (banddelay, nextband) =>
        delayStage w dir buf c banddelay { s with nextband := Function.update s.nextband dir nextband }

/-- The copies of a packet, one after the other. -/
def copyMachine (w : WireValues) (dir : Dir) (buf : List UInt8) : Machine RateState CopyDraws :=
  ⟨fun _ _ => True, handleCopy w dir buf⟩

end Vde
