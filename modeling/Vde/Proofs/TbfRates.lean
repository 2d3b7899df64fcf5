import Mathlib.Data.List.Induction
import Mathlib.Tactic.Linarith
import Vde.Proofs.TbfCalls

/-!
# The rate of the token bucket of vde_l3

`tbf_dequeue` stores the length of the packet that leaves in `bytes_out`, where it should add it: a packet smaller than
`mtu` causes no pause, and is forgotten when the next one leaves. The pause after a whole packet is rounded down to
microseconds. The rate is kept as long as neither of the two matters.
-/

namespace Vde.L3

open List

/-! ## Windows -/

def bytesWhere (p : Int → Bool) (out : List (Int × Nat)) : Nat := ((out.filter fun o => p o.1).map Prod.snd).sum

def bytesIn (a b : Int) : List (Int × Nat) → Nat := bytesWhere fun t => decide (a ≤ t ∧ t ≤ b)

def bytesSince (a : Int) : List (Int × Nat) → Nat := bytesWhere fun t => decide (a ≤ t)

section

variable {p q : Int → Bool} {out : List (Int × Nat)}

lemma bytesWhere_nil : bytesWhere p [] = 0 := rfl

lemma bytesWhere_snoc (p : Int → Bool) (out : List (Int × Nat)) (t : Int) (len : Nat) :
    bytesWhere p (out ++ [(t, len)]) = bytesWhere p out + if p t then len else 0 := by
  simp only [bytesWhere, filter_append, map_append, sum_append]
  cases hp : p t with
  | false => simp [hp]
  | true => simp [hp]

lemma bytesWhere_mono (h : ∀ t, p t = true → q t = true) : bytesWhere p out ≤ bytesWhere q out := by
  induction out using reverseRecOn with
  | nil => exact Nat.le_refl _
  | append_singleton out o ih =>
    rw [bytesWhere_snoc, bytesWhere_snoc]
    cases hp : p o.1 with
    | false => exact Nat.le_trans ih (Nat.le_add_right _ _)
    | true =>
      rw [h o.1 hp]
      exact Nat.add_le_add_right ih _

lemma bytesWhere_none (h : ∀ o ∈ out, p o.1 = false) : bytesWhere p out = 0 := by
  have hfilter : (out.filter fun o => p o.1) = [] := by
    rw [filter_eq_nil_iff]
    intro o ho
    rw [h o ho]
    decide
  rw [bytesWhere, hfilter]
  rfl

end

/-! ## Runs -/

/-- The queue of an interface with the last time and what was sent: the times in microseconds, and the lengths. -/
structure TbfRun where
  run : QueueRun
  clock : Int
  out : List (Int × Nat)

def sentNow (s : QueueRun) (now : Time) : List Buff := if s.vif.qOut = [] then [] else (dequeue now s.vif).sent

def tbfStep (t : TbfRun) : QueueEvent → TbfRun
  | .enqueue vdb => { t with run := queueStep t.run (.enqueue vdb) }
  | .dequeue now =>
    { run := queueStep t.run (.dequeue now)
      clock := now.micros
      out := t.out ++ (sentNow t.run now).map fun vdb => (now.micros, vdb.len) }

def TbfLegal (t : TbfRun) : QueueEvent → Prop
  | .enqueue vdb => 14 ≤ vdb.len ∧ vdb.len ≤ 1548
  | .dequeue now => now.Valid ∧ t.clock ≤ now.micros

def tbfMachine : Machine TbfRun QueueEvent where
  enabled t e := t.run.fault = false ∧ TbfLegal t e
  step := tbfStep

def tbfStart (vif : Iface) (clock : Int) : TbfRun := { run := queueStart vif, clock := clock, out := [] }

/-- The bytes sent in each window are at most what the rate (in bytes for each second) allows and `k` packets of the
largest size, and `qlen` has the bytes in the queue. -/
structure TbfRight (k rate : Nat) (t : TbfRun) : Prop where
  window : ∀ a b, a ≤ b → (bytesIn a b t.out : Int) * 1000000 ≤ rate * (b - a) + k * 1548 * 1000000
  qlen : (t.run.vif.tcPriv qlenAt).toNat = queueBytes t.run.vif.qOut

/-- A packet that is sent finds `bytes_out` at 0 and a pause that was not rounded; a packet that is taken leaves less
than `2 ^ 32` bytes in the queue. -/
def TbfExact (t : TbfRun) : QueueEvent → Prop
  | .enqueue vdb =>
    let tbf := tbfTcpriv t.run.vif.tcPriv
    tbf.qlen < tbf.limit → tbf.qlen.toNat + vdb.len < 2 ^ 32
  | .dequeue now =>
    let tbf := tbfTcpriv t.run.vif.tcPriv
    t.run.vif.qOut ≠ [] → now.before tbf.due = false →
      tbf.bytesOut = 0 ∧ tbf.rate.toNat ∣ 1000000 * tbf.mtu.toNat

/-! ## The bucket -/

/-- What the bucket keeps of its times and of what was sent. -/
structure TbfLaw (rate : Nat) (tbf : Tbf) (out : List (Int × Nat)) : Prop where
  rateSet : tbf.rate.toNat = rate
  ratePos : 0 < rate
  mtu : 1000 ≤ tbf.mtu.toNat ∧ tbf.mtu.toNat ≤ 1548
  delta : tbf.delta = ⟨0, ((1000000 * tbf.mtu.toNat / rate : Nat) : Int)⟩
  lastOut : tbf.lastOut.Valid
  quiet : tbf.bytesOut = 0 → ∀ o ∈ out, o.1 ≤ tbf.lastOut.micros
  since : ∀ a, (bytesSince a out : Int) * 1000000 ≤
    rate * max 0 (tbf.lastOut.micros - a) + 1548 * 1000000 + tbf.bytesOut.toNat * 1000000
  window : ∀ a b, a ≤ b → (bytesIn a b out : Int) * 1000000 ≤ rate * (b - a) + 2 * 1548 * 1000000

variable {rate : Nat} {tbf : Tbf} {out : List (Int × Nat)}

lemma TbfLaw.due_micros (h : TbfLaw rate tbf out) : tbf.due.micros =
    tbf.lastOut.micros + ((1000000 * tbf.mtu.toNat / rate : Nat) : Int) ∧ 0 ≤ tbf.due.usec ∧
    tbf.due.usec < 1000000 := by
  have husec := h.lastOut.usec
  have hdelta : (0 : Int) ≤ ((1000000 * tbf.mtu.toNat / rate : Nat) : Int) := Int.natCast_nonneg _
  rw [Tbf.due, h.delta]
  generalize ((1000000 * tbf.mtu.toNat / rate : Nat) : Int) = d at hdelta ⊢
  have hpos : 0 ≤ tbf.lastOut.usec + d := by omega
  simp only [addT, Time.micros, Int.tdiv_eq_ediv_of_nonneg hpos, Int.tmod_eq_emod_of_nonneg hpos]
  omega

lemma micros_le {x y : Time} (h : x.before y = false) (hx : 0 ≤ x.usec) (hy : y.usec < 1000000) :
    y.micros ≤ x.micros := by
  simp only [Time.before, Bool.or_eq_false_iff, Bool.and_eq_false_iff, decide_eq_false_iff_not,
    beq_eq_false_iff_ne] at h
  unfold Time.micros
  omega

variable {now : Time}

lemma TbfLaw.paused (h : TbfLaw rate tbf out) (hnow : now.Valid) (hdue : now.before tbf.due = false) :
    tbf.lastOut.micros + ((1000000 * tbf.mtu.toNat / rate : Nat) : Int) ≤ now.micros := by
  obtain ⟨hmicros, _, husec⟩ := h.due_micros
  have hle := micros_le hdue hnow.usec.1 husec
  omega

lemma bytesIn_le_since (a b : Int) : bytesIn a b out ≤ bytesSince a out :=
  bytesWhere_mono fun t ht => by
    rw [decide_eq_true_eq] at ht ⊢
    exact ht.1

variable {len : Nat}

lemma window_snoc {last now : Int} {held : Nat}
    (hold : ∀ a b, a ≤ b → (bytesIn a b out : Int) * 1000000 ≤ rate * (b - a) + 2 * 1548 * 1000000)
    (hsince : ∀ a, (bytesSince a (out ++ [(now, len)]) : Int) * 1000000 ≤
      rate * max 0 (last - a) + 1548 * 1000000 + held * 1000000)
    (hlast : last ≤ now) (hheld : held ≤ 1548) (a b : Int) (hab : a ≤ b) :
    (bytesIn a b (out ++ [(now, len)]) : Int) * 1000000 ≤ rate * (b - a) + 2 * 1548 * 1000000 := by
  by_cases hin : now ≤ b
  · have hle : (bytesIn a b (out ++ [(now, len)]) : Int) ≤ bytesSince a (out ++ [(now, len)]) :=
      Int.ofNat_le.mpr (bytesIn_le_since a b)
    have hmax : max 0 (last - a) ≤ b - a := by omega
    have hmul : (rate : Int) * max 0 (last - a) ≤ rate * (b - a) :=
      Int.mul_le_mul_of_nonneg_left hmax (Int.natCast_nonneg _)
    have hbound := hsince a
    omega
  have hout : decide (a ≤ now ∧ now ≤ b) = false := decide_eq_false fun hboth => hin hboth.2
  have hsame : bytesIn a b (out ++ [(now, len)]) = bytesIn a b out := by
    rw [bytesIn, bytesWhere_snoc, hout]
    rfl
  rw [hsame]
  exact hold a b hab

lemma ofNat_len (hlen : len ≤ 1548) : (BitVec.ofNat 32 len).toNat = len := by
  rw [BitVec.toNat_ofNat]
  exact Nat.mod_eq_of_lt (show len < 2 ^ 32 by omega)

lemma pause_toNat {mtu word : BitVec 32} (hmtu : mtu.toNat ≤ 1548) :
    ((1000000 * mtu) / word).toNat = 1000000 * mtu.toNat / word.toNat := by
  have hmul : (1000000 * mtu).toNat = 1000000 * mtu.toNat := by
    rw [BitVec.toNat_mul]
    exact Nat.mod_eq_of_lt (show 1000000 * mtu.toNat < 2 ^ 32 by omega)
  rw [BitVec.toNat_udiv, hmul]

section

variable (h : TbfLaw rate tbf out)

include h

lemma TbfLaw.of_queue (qlen limit : BitVec 32) :
    TbfLaw rate { tbf with qlen := qlen, limit := limit } out :=
  ⟨h.rateSet, h.ratePos, h.mtu, h.delta, h.lastOut, h.quiet, h.since, h.window⟩

lemma TbfLaw.take (hlen : len ≤ 1548) : TbfLaw rate (tbf.take len) out := by
  unfold Tbf.take
  by_cases hgrow : tbf.mtu.toNat < len
  · have hmtu : (BitVec.ofNat 32 len).toNat = len := ofNat_len hlen
    have hlow := h.mtu.1
    have hgrown : TbfLaw rate
        { tbf with mtu := BitVec.ofNat 32 len
                   delta := ⟨tbf.delta.sec, ((1000000 * BitVec.ofNat 32 len) / tbf.rate).toNat⟩ } out :=
      { rateSet := h.rateSet
        ratePos := h.ratePos
        mtu := by
          change 1000 ≤ (BitVec.ofNat 32 len).toNat ∧ (BitVec.ofNat 32 len).toNat ≤ 1548
          omega
        delta := by
          change (⟨tbf.delta.sec, _⟩ : Time) = _
          rw [pause_toNat (by omega), h.rateSet, h.delta]
        lastOut := h.lastOut
        quiet := h.quiet
        since := h.since
        window := h.window }
    simp only [if_pos hgrow]
    exact hgrown.of_queue _ _
  simp only [if_neg hgrow]
  exact h.of_queue _ _

lemma TbfLaw.send_small (hnow : now.Valid)
    (hdue : now.before tbf.due = false) (hzero : tbf.bytesOut = 0) (hpos : 0 < len) (hlen : len < tbf.mtu.toNat) :
    TbfLaw rate (tbf.send now len) (out ++ [(now.micros, len)]) := by
  have hhigh := h.mtu.2
  have hval : (BitVec.ofNat 32 len).toNat = len := ofNat_len (by omega)
  have hless : BitVec.ofNat 32 len < tbf.mtu := by
    change (BitVec.ofNat 32 len).toNat < tbf.mtu.toNat
    omega
  have hpaused := h.paused hnow hdue
  have hlast : tbf.lastOut.micros ≤ now.micros :=
    Int.le_trans (Int.le_add_of_nonneg_right (Int.natCast_nonneg _)) hpaused
  have hold : tbf.bytesOut.toNat = 0 := by rw [hzero]; rfl
  have hsince : ∀ a, (bytesSince a (out ++ [(now.micros, len)]) : Int) * 1000000 ≤
      rate * max 0 (tbf.lastOut.micros - a) + 1548 * 1000000 + len * 1000000 := by
    intro a
    have hbound := h.since a
    rw [bytesSince, bytesWhere_snoc]
    rw [hold, bytesSince] at hbound
    by_cases hin : a ≤ now.micros
    · rw [decide_eq_true hin, if_pos rfl]
      omega
    rw [decide_eq_false hin, if_neg Bool.false_ne_true]
    omega
  have hsent : tbf.send now len =
      { tbf with qlen := tbf.qlen - BitVec.ofNat 32 len, bytesOut := BitVec.ofNat 32 len } := by
    simp only [Tbf.send, if_pos hless]
  rw [hsent]
  exact
    { rateSet := h.rateSet
      ratePos := h.ratePos
      mtu := h.mtu
      delta := h.delta
      lastOut := h.lastOut
      quiet := by
        intro hno
        have hnat : (BitVec.ofNat 32 len).toNat = (0 : BitVec 32).toNat := congrArg BitVec.toNat hno
        rw [hval] at hnat
        have h0 : (0 : BitVec 32).toNat = 0 := rfl
        omega
      since := by
        change ∀ a, _ ≤ _ + _ + ((BitVec.ofNat 32 len).toNat : Int) * 1000000
        rw [hval]
        exact hsince
      window := window_snoc h.window hsince hlast (by omega) }

lemma TbfLaw.send_whole (hnow : now.Valid)
    (hdue : now.before tbf.due = false) (hzero : tbf.bytesOut = 0) (hexact : rate ∣ 1000000 * tbf.mtu.toNat) :
    TbfLaw rate (tbf.send now tbf.mtu.toNat) (out ++ [(now.micros, tbf.mtu.toNat)]) := by
  have hlow := h.mtu.1
  have hhigh := h.mtu.2
  have hself : BitVec.ofNat 32 tbf.mtu.toNat = tbf.mtu := by rw [BitVec.ofNat_toNat, BitVec.setWidth_eq]
  have hpaused := h.paused hnow hdue
  have hlast : tbf.lastOut.micros ≤ now.micros :=
    Int.le_trans (Int.le_add_of_nonneg_right (Int.natCast_nonneg _)) hpaused
  have hold : tbf.bytesOut.toNat = 0 := by rw [hzero]; rfl
  -- the pause pays for one packet
  have hpay : (rate : Int) * ((1000000 * tbf.mtu.toNat / rate : Nat) : Int) = 1000000 * tbf.mtu.toNat := by
    have hnat : rate * (1000000 * tbf.mtu.toNat / rate) = 1000000 * tbf.mtu.toNat := Nat.mul_div_cancel' hexact
    exact_mod_cast hnat
  have hsince : ∀ a, (bytesSince a (out ++ [(now.micros, tbf.mtu.toNat)]) : Int) * 1000000 ≤
      rate * max 0 (now.micros - a) + 1548 * 1000000 + (0 : Nat) * 1000000 := by
    intro a
    have hbound := h.since a
    rw [bytesSince, bytesWhere_snoc]
    rw [hold, bytesSince] at hbound
    have hpart : (0 : Int) ≤ rate * max 0 (now.micros - a) := Int.mul_nonneg (Int.natCast_nonneg _) (by omega)
    by_cases hbefore : a ≤ tbf.lastOut.micros
    · have hin : a ≤ now.micros := Int.le_trans hbefore hlast
      rw [decide_eq_true hin, if_pos rfl]
      have hsplit : (rate : Int) * (max 0 (tbf.lastOut.micros - a) + ((1000000 * tbf.mtu.toNat / rate : Nat) : Int)) ≤
          rate * max 0 (now.micros - a) :=
        Int.mul_le_mul_of_nonneg_left (by omega) (Int.natCast_nonneg _)
      rw [Int.mul_add, hpay] at hsplit
      omega
    have hnone : bytesWhere (fun t => decide (a ≤ t)) out = 0 :=
      bytesWhere_none fun o ho => by
        have hle := h.quiet hzero o ho
        exact decide_eq_false (by omega)
    rw [hnone]
    by_cases hin : a ≤ now.micros
    · rw [decide_eq_true hin, if_pos rfl]
      omega
    rw [decide_eq_false hin, if_neg Bool.false_ne_true]
    omega
  have hzero' : tbf.mtu % tbf.mtu = 0 := BitVec.umod_self
  have hsent : tbf.send now tbf.mtu.toNat =
      { tbf with qlen := tbf.qlen - tbf.mtu, lastOut := now, bytesOut := 0 } := by
    simp only [Tbf.send, hself, if_neg (BitVec.lt_irrefl tbf.mtu), hzero']
  rw [hsent]
  exact
    { rateSet := h.rateSet
      ratePos := h.ratePos
      mtu := h.mtu
      delta := h.delta
      lastOut := hnow
      quiet := by
        intro _ o ho
        rw [mem_append, mem_singleton] at ho
        rcases ho with ho | rfl
        · exact Int.le_trans (h.quiet hzero o ho) hlast
        · exact Int.le_refl _
      since := hsince
      window := window_snoc h.window hsince (Int.le_refl _) (by omega) }

end

/-! ## The queue -/

structure TbfInv (rate : Nat) (t : TbfRun) : Prop where
  law : TbfLaw rate (tbfTcpriv t.run.vif.tcPriv) t.out
  policy : t.run.vif.policy = .tbf
  qlen : (tbfTcpriv t.run.vif.tcPriv).qlen.toNat = queueBytes t.run.vif.qOut
  packets : ∀ vdb ∈ t.run.vif.qOut, 14 ≤ vdb.len ∧ vdb.len ≤ (tbfTcpriv t.run.vif.tcPriv).mtu.toNat

lemma TbfInv.right {t : TbfRun} (h : TbfInv rate t) : TbfRight 2 rate t := ⟨h.law.window, h.qlen⟩

lemma Tbf.take_qlen (tbf : Tbf) (len : Nat) : (tbf.take len).qlen = tbf.qlen + BitVec.ofNat 32 len := by
  unfold Tbf.take
  by_cases hgrow : tbf.mtu.toNat < len
  · simp only [if_pos hgrow]
  · simp only [if_neg hgrow]

lemma Tbf.take_mtu (tbf : Tbf) (hlen : len ≤ 1548) : (tbf.take len).mtu.toNat = max tbf.mtu.toNat len := by
  unfold Tbf.take
  by_cases hgrow : tbf.mtu.toNat < len
  · simp only [if_pos hgrow, ofNat_len hlen]
    omega
  simp only [if_neg hgrow]
  omega

lemma Tbf.send_qlen (tbf : Tbf) (now : Time) (len : Nat) :
    (tbf.send now len).qlen = tbf.qlen - BitVec.ofNat 32 len := by
  unfold Tbf.send
  by_cases hless : BitVec.ofNat 32 len < tbf.mtu
  · simp only [if_pos hless]
  · simp only [if_neg hless]

lemma Tbf.send_mtu (tbf : Tbf) (now : Time) (len : Nat) : (tbf.send now len).mtu = tbf.mtu := by
  unfold Tbf.send
  by_cases hless : BitVec.ofNat 32 len < tbf.mtu
  · simp only [if_pos hless]
  · simp only [if_neg hless]

variable {t : TbfRun} {vdb : Buff}

lemma TbfLaw.rate_ne (h : TbfLaw rate tbf out) : tbf.rate ≠ 0 := by
  intro hzero
  have hpos := h.ratePos
  have hset := h.rateSet
  rw [hzero] at hset
  have h0 : (0 : BitVec 32).toNat = 0 := rfl
  omega

lemma TbfLaw.mtu_ne (h : TbfLaw rate tbf out) : tbf.mtu ≠ 0 := by
  intro hzero
  have hlow := h.mtu.1
  rw [hzero] at hlow
  exact absurd hlow (by decide)

lemma TbfInv.enqueue (h : TbfInv rate t) (hlegal : TbfLegal t (.enqueue vdb)) (hexact : TbfExact t (.enqueue vdb)) :
    TbfInv rate (tbfStep t (.enqueue vdb)) := by
  have hcall := enqueue_tbf vdb h.policy
  by_cases hroom : (tbfTcpriv t.run.vif.tcPriv).qlen < (tbfTcpriv t.run.vif.tcPriv).limit
  · obtain ⟨priv, htaken, hpriv⟩ := tbfEnqueue_taken vdb hroom h.law.rate_ne
    have hfits : (tbfTcpriv t.run.vif.tcPriv).qlen.toNat + vdb.len < 2 ^ 32 := hexact hroom
    have hval := ofNat_len hlegal.2
    simp only [tbfStep, queueStep, hcall, htaken]
    refine ⟨?_, h.policy, ?_, ?_⟩
    · rw [hpriv]
      exact h.law.take hlegal.2
    · rw [hpriv, Tbf.take_qlen, queueBytes_append, ← h.qlen, BitVec.toNat_add, hval]
      exact Nat.mod_eq_of_lt hfits
    intro v hv
    rw [hpriv, Tbf.take_mtu _ hlegal.2]
    rcases mem_append.mp hv with hv | hv
    · have hold := h.packets v hv
      omega
    rw [mem_singleton.mp hv]
    have hlen := hlegal
    have hlow : 14 ≤ vdb.len := hlen.1
    omega
  obtain ⟨priv, hdropped, hpriv⟩ := tbfEnqueue_dropped vdb hroom
  simp only [tbfStep, queueStep, hcall, hdropped]
  refine ⟨?_, h.policy, ?_, ?_⟩
  · rw [hpriv]
    exact h.law
  · rw [hpriv]
    exact h.qlen
  rw [hpriv]
  exact h.packets

lemma TbfInv.send (h : TbfInv rate t) {rest : List Buff} (hq : t.run.vif.qOut = vdb :: rest)
    (hnow : now.Valid) (hdue : now.before (tbfTcpriv t.run.vif.tcPriv).due = false)
    (hexact : (tbfTcpriv t.run.vif.tcPriv).bytesOut = 0 ∧
      (tbfTcpriv t.run.vif.tcPriv).rate.toNat ∣ 1000000 * (tbfTcpriv t.run.vif.tcPriv).mtu.toNat) :
    TbfLaw rate ((tbfTcpriv t.run.vif.tcPriv).send now vdb.len) (t.out ++ [(now.micros, vdb.len)]) := by
  have hlen := h.packets vdb (hq ▸ mem_cons_self)
  rcases Nat.lt_or_ge vdb.len (tbfTcpriv t.run.vif.tcPriv).mtu.toNat with hless | hge
  · exact h.law.send_small hnow hdue hexact.1 (by omega) hless
  have hmtu : vdb.len = (tbfTcpriv t.run.vif.tcPriv).mtu.toNat := Nat.le_antisymm hlen.2 hge
  have hdvd : rate ∣ 1000000 * (tbfTcpriv t.run.vif.tcPriv).mtu.toNat := by
    rw [← h.law.rateSet]
    exact hexact.2
  rw [hmtu]
  exact h.law.send_whole hnow hdue hexact.1 hdvd

lemma TbfInv.dequeue (h : TbfInv rate t) (hlegal : TbfLegal t (.dequeue now))
    (hexact : TbfExact t (.dequeue now)) : TbfInv rate (tbfStep t (.dequeue now)) := by
  have hcall := dequeue_tbf now h.policy
  by_cases hq : t.run.vif.qOut = []
  · simp only [tbfStep, queueStep, sentNow, if_pos hq, map_nil, append_nil]
    exact ⟨h.law, h.policy, h.qlen, h.packets⟩
  by_cases hdue : now.before (tbfTcpriv t.run.vif.tcPriv).due = true
  · simp only [tbfStep, queueStep, sentNow, if_neg hq, hcall, tbfDequeue_early hdue, map_nil, append_nil]
    exact ⟨h.law, h.policy, h.qlen, h.packets⟩
  have hpast : now.before (tbfTcpriv t.run.vif.tcPriv).due = false := Bool.eq_false_of_not_eq_true hdue
  obtain ⟨vdb, rest, hcons⟩ := exists_cons_of_ne_nil hq
  obtain ⟨priv, hsent, hpriv⟩ := tbfDequeue_sent hdue hcons h.law.mtu_ne hlegal.1
  have hlaw := h.send hcons hlegal.1 hpast (hexact hq hpast)
  have hqlen : (tbfTcpriv t.run.vif.tcPriv).qlen.toNat = vdb.len + queueBytes rest := by
    rw [h.qlen, hcons, queueBytes_cons]
  simp only [tbfStep, queueStep, sentNow, if_neg hq, hcall, hsent, map_cons, map_nil]
  refine ⟨?_, h.policy, ?_, ?_⟩
  · rw [hpriv]
    exact hlaw
  · have hroom := vdb.room
    have hval : (BitVec.ofNat 32 vdb.len).toNat = vdb.len := by
      rw [BitVec.toNat_ofNat]
      exact Nat.mod_eq_of_lt (show vdb.len < 2 ^ 32 by omega)
    rw [hpriv, Tbf.send_qlen, BitVec.toNat_sub_of_le (by rw [BitVec.le_def, hval]; omega), hval]
    change (tbfTcpriv t.run.vif.tcPriv).qlen.toNat - vdb.len = queueBytes rest
    omega
  rw [hpriv, Tbf.send_mtu]
  intro v hv
  exact h.packets v (hcons ▸ mem_cons_of_mem _ hv)

/-! ## The policy -/

lemma tbfInv_start {env : TcEnv} {vif vif' : Iface} {args : List Char} (hq : vif.qOut = []) (hnow : env.now.Valid)
    (hinit : tbfInit env (setInterfacePolicy vif .tbf) args = .ok vif') (clock : Int) :
    TbfInv (vif'.tcPriv rateAt).toNat (tbfStart vif' clock) := by
  obtain ⟨word, latency, limit, hlow, hvif⟩ := tbfInit_ok hinit
  obtain ⟨limit', htbf⟩ := tbfTcpriv_tbfPriv hnow (word >>> 3) latency limit
  have hpriv : tbfTcpriv vif'.tcPriv =
      { qlen := 0, limit := limit', latency := latency, rate := word >>> 3, mtu := 1000, bytesOut := 0
        delta := ⟨0, ((1000000000 : BitVec 32) / (word >>> 3)).toNat⟩, lastOut := env.now } := by
    rw [hvif]
    exact htbf
  have hrate : (word >>> 3).toNat = (vif'.tcPriv rateAt).toNat :=
    congrArg BitVec.toNat (congrArg Tbf.rate hpriv).symm
  have hpos : 0 < (word >>> 3).toNat := by
    have hge : 5000 ≤ word.toNat := Nat.le_of_not_lt hlow
    rw [BitVec.toNat_ushiftRight, Nat.shiftRight_eq_div_pow]
    omega
  have hqueue : vif'.qOut = [] := by
    rw [hvif]
    exact hq
  have hlaw : TbfLaw (vif'.tcPriv rateAt).toNat (tbfTcpriv vif'.tcPriv) [] := by
    rw [hpriv, ← hrate]
    exact
      { rateSet := rfl
        ratePos := hpos
        mtu := show 1000 ≤ (1000 : BitVec 32).toNat ∧ (1000 : BitVec 32).toNat ≤ 1548 by decide
        delta := by
          change (⟨0, (((1000000 * 1000 : BitVec 32) / (word >>> 3)).toNat : Int)⟩ : Time) = _
          rw [pause_toNat (by decide)]
        lastOut := hnow
        quiet := fun _ o ho => absurd ho not_mem_nil
        since := by
          intro a
          have hpart : (0 : Int) ≤ ((word >>> 3).toNat : Int) * max 0 (env.now.micros - a) :=
            Int.mul_nonneg (Int.natCast_nonneg _) (by omega)
          rw [bytesSince, bytesWhere_nil]
          change (0 : Int) * 1000000 ≤
            ((word >>> 3).toNat : Int) * max 0 (env.now.micros - a) + 1548 * 1000000 + (0 : Int) * 1000000
          omega
        window := by
          intro a b hab
          have hpart : (0 : Int) ≤ ((word >>> 3).toNat : Int) * (b - a) :=
            Int.mul_nonneg (Int.natCast_nonneg _) (by omega)
          rw [bytesIn, bytesWhere_nil]
          change (0 : Int) * 1000000 ≤ _
          omega }
  refine ⟨hlaw, ?_, ?_, ?_⟩
  · rw [tbfStart, queueStart, hvif]
    rfl
  · change (tbfTcpriv vif'.tcPriv).qlen.toNat = queueBytes vif'.qOut
    rw [hpriv, hqueue]
    rfl
  intro vdb hvdb
  change vdb ∈ vif'.qOut at hvdb
  rw [hqueue] at hvdb
  exact absurd hvdb not_mem_nil

/-- In every run under `tbf`, from its initialisation on an empty queue, in which each packet that is sent finds
`bytes_out` at 0 and an exact pause, and the queue stays below `2 ^ 32` bytes: in each window no more leaves than the
rate allows and two packets of the largest size, and `qlen` has the bytes in the queue. -/
theorem tbf_right_of_exact {env : TcEnv} {vif vif' : Iface} {args : List Char} (hq : vif.qOut = [])
    (hnow : env.now.Valid) (hinit : tbfInit env (setInterfacePolicy vif .tbf) args = .ok vif') (clock : Int)
    (es : List QueueEvent) (hes : tbfMachine.Along tbfMachine.enabled (tbfStart vif' clock) es)
    (hexact : tbfMachine.Along TbfExact (tbfStart vif' clock) es) :
    tbfMachine.Always (TbfRight 2 (vif'.tcPriv rateAt).toNat) (tbfStart vif' clock) es := by
  refine Machine.Along.always (TbfInv (vif'.tcPriv rateAt).toNat) (fun _ h => h.right) ?_
    (tbfInv_start hq hnow hinit clock) (hes.and hexact)
  intro t e h hboth
  obtain ⟨⟨_, hlegal⟩, hok⟩ := hboth
  cases e with
  | enqueue vdb => exact h.enqueue hlegal hok
  | dequeue now => exact h.dequeue hlegal hok

lemma noModules_valid : noModules.now.Valid :=
  ⟨⟨show (-2 ^ 63 : Int) ≤ 0 by decide, show (0 : Int) < 2 ^ 63 by decide⟩,
    show (0 : Int) ≤ 0 ∧ (0 : Int) < 1000000 by decide⟩

/-- The arguments `rate 8000 limit 10000`: 1000 bytes for each second. -/
def rateArgs : List Char :=
  ['r', 'a', 't', 'e', ' ', '8', '0', '0', '0', ' ', 'l', 'i', 'm', 'i', 't', ' ', '1', '0', '0', '0', '0']

def tbfIface : Iface :=
  { idleIface with policyName := .tbf, policy := .tbf, tcPriv := tbfPriv noModules 1000 0 (some 10000) }

lemma tbfIface_init : tbfInit noModules (setInterfacePolicy idleIface .tbf) rateArgs = .ok tbfIface := rfl

def twoSeconds : Time := ⟨2, 0⟩

lemma twoSeconds_valid : twoSeconds.Valid :=
  ⟨⟨show (-2 ^ 63 : Int) ≤ 2 by decide, show (2 : Int) < 2 ^ 63 by decide⟩,
    show (0 : Int) ≤ 0 ∧ (0 : Int) < 1000000 by decide⟩

def smallBucket (bytesOut : BitVec 32) : Tbf :=
  { qlen := 0, limit := 10000, latency := 0, rate := 1000, mtu := 1000, bytesOut := bytesOut
    delta := ⟨0, 1000000⟩, lastOut := ⟨0, 0⟩ }

lemma tbfIface_bucket : tbfTcpriv tbfIface.tcPriv = smallBucket 0 := by
  obtain ⟨limit', h⟩ := tbfTcpriv_tbfPriv noModules_valid 1000 0 (some 10000)
  have hlimit : limit' = 10000 := (congrArg Tbf.limit h).symm
  rw [tbfIface, h, hlimit]
  rfl

/-- The second of two packets waits until the pause after the first has passed. -/
def wholeBuff : List QueueEvent :=
  [.enqueue (blankBuff 1000 (Nat.le_of_ble_eq_true rfl)), .enqueue (blankBuff 1000 (Nat.le_of_ble_eq_true rfl)),
    .dequeue twoSeconds, .dequeue ⟨4, 0⟩]

lemma wholeBuff_enabled : tbfMachine.Along tbfMachine.enabled (tbfStart tbfIface 0) wholeBuff := by
  have hlen : 14 ≤ 1000 ∧ 1000 ≤ 1548 := by decide
  have hlater : (2000000 : Int) ≤ 4000000 := by decide
  exact ⟨⟨rfl, hlen⟩, ⟨rfl, hlen⟩, ⟨rfl, twoSeconds_valid, show (0 : Int) ≤ 2000000 by decide⟩,
    ⟨rfl, ⟨by decide, by decide⟩, hlater⟩, trivial⟩

lemma wholeBuff_exact : tbfMachine.Along TbfExact (tbfStart tbfIface 0) wholeBuff :=
  ⟨fun _ => show 0 + 1000 < 2 ^ 32 by decide, fun _ => show 1000 + 1000 < 2 ^ 32 by decide,
    fun _ _ => ⟨rfl, show 1000 ∣ 1000000 * 1000 by decide⟩, fun _ _ => ⟨rfl, show 1000 ∣ 1000000 * 1000 by decide⟩, trivial⟩

theorem tbf_right_of_exact_whole : tbfMachine.Always (TbfRight 2 1000) (tbfStart tbfIface 0) wholeBuff :=
  tbf_right_of_exact rfl noModules_valid tbfIface_init 0 wholeBuff wholeBuff_enabled wholeBuff_exact

/-! ## Small packets -/

def smallPacket : Buff := blankBuff 100 (Nat.le_of_ble_eq_true rfl)

def smallBuff : List QueueEvent := [.enqueue (smallPacket), .dequeue twoSeconds]

structure SmallSent (n : Nat) (t : TbfRun) : Prop where
  fault : t.run.fault = false
  policy : t.run.vif.policy = .tbf
  queue : t.run.vif.qOut = []
  bucket : ∃ bytesOut, tbfTcpriv t.run.vif.tcPriv = smallBucket bytesOut
  clock : t.clock ≤ 2000000
  sent : bytesIn 2000000 2000000 t.out = 100 * n

lemma smallBucket_send (bytesOut : BitVec 32) :
    ({ smallBucket bytesOut with qlen := 100 } : Tbf).send twoSeconds 100 = smallBucket 100 := by
  simp only [Tbf.send, smallBucket]
  rfl

lemma SmallSent.next {n : Nat} (h : SmallSent n t) :
    tbfMachine.Along tbfMachine.enabled t smallBuff ∧ SmallSent (n + 1) (tbfMachine.run t smallBuff) := by
  obtain ⟨bytesOut, hbucket⟩ := h.bucket
  have hroom : (tbfTcpriv t.run.vif.tcPriv).qlen < (tbfTcpriv t.run.vif.tcPriv).limit := by
    rw [hbucket]
    exact (by decide : (0 : BitVec 32) < 10000)
  have hrate : (tbfTcpriv t.run.vif.tcPriv).rate ≠ 0 := by
    rw [hbucket]
    exact (by decide : (1000 : BitVec 32) ≠ 0)
  obtain ⟨priv, htaken, hpriv⟩ := tbfEnqueue_taken smallPacket hroom hrate
  have henqueue : queueStep t.run (.enqueue (smallPacket)) =
      { t.run with
        vif := { t.run.vif with qOut := [smallPacket], tcPriv := priv }
        accepted := t.run.accepted ++ [smallPacket] } := by
    simp only [queueStep, enqueue_tbf _ h.policy, htaken, if_true, h.queue, nil_append]
  have hmid : tbfTcpriv priv = { smallBucket bytesOut with qlen := 100 } := by
    rw [hpriv, hbucket]
    rfl
  have hdue : ¬twoSeconds.before (tbfTcpriv priv).due = true := by
    rw [hmid]
    change ¬twoSeconds.before (addT ⟨0, 0⟩ ⟨0, 1000000⟩) = true
    decide
  have hmtu : (tbfTcpriv priv).mtu ≠ 0 := by
    rw [hmid]
    exact (by decide : (1000 : BitVec 32) ≠ 0)
  obtain ⟨priv', hsent, hpriv'⟩ := @tbfDequeue_sent { t.run.vif with qOut := [smallPacket], tcPriv := priv }
    smallPacket twoSeconds [] hdue rfl hmtu twoSeconds_valid
  have hdequeue : L3.dequeue twoSeconds { t.run.vif with qOut := [smallPacket], tcPriv := priv } =
      ⟨{ t.run.vif with qOut := [], tcPriv := priv' }, [smallPacket], false⟩ := by
    have hpolicy : ({ t.run.vif with qOut := [smallPacket], tcPriv := priv } : Iface).policy = .tbf := h.policy
    exact (dequeue_tbf twoSeconds hpolicy).trans hsent
  have hrun : tbfMachine.run t smallBuff =
      { run :=
          { vif := { t.run.vif with qOut := [], tcPriv := priv' }
            accepted := t.run.accepted ++ [smallPacket]
            sent := t.run.sent ++ [smallPacket]
            fault := false }
        clock := 2000000
        out := t.out ++ [(2000000, 100)] } := by
    change tbfStep { t with run := queueStep t.run (.enqueue (smallPacket)) } (.dequeue twoSeconds) = _
    rw [henqueue]
    simp only [tbfStep, queueStep, sentNow, cons_ne_nil, if_false, hdequeue]
    rfl
  refine ⟨⟨⟨h.fault, show 14 ≤ 100 ∧ 100 ≤ 1548 by decide⟩, ⟨?_, twoSeconds_valid, h.clock⟩, trivial⟩, ?_⟩
  · change (queueStep t.run (.enqueue (smallPacket))).fault = false
    rw [henqueue]
    exact h.fault
  rw [hrun]
  refine ⟨rfl, h.policy, rfl, ⟨100, ?_⟩, Int.le_refl _, ?_⟩
  · change tbfTcpriv priv' = smallBucket 100
    rw [hpriv', hmid]
    exact smallBucket_send bytesOut
  change bytesIn 2000000 2000000 (t.out ++ [(2000000, 100)]) = _
  rw [bytesIn, bytesWhere_snoc, ← bytesIn, h.sent]
  rfl

lemma smallSent_run (n : Nat) : ∃ es, tbfMachine.Along tbfMachine.enabled (tbfStart tbfIface 0) es ∧
    SmallSent n (tbfMachine.run (tbfStart tbfIface 0) es) := by
  induction n with
  | zero => exact ⟨[], trivial, rfl, rfl, rfl, ⟨0, tbfIface_bucket⟩, show (0 : Int) ≤ 2000000 by decide, rfl⟩
  | succ n ih =>
    obtain ⟨es, hes, hsent⟩ := ih
    obtain ⟨hmore, hnext⟩ := hsent.next
    refine ⟨es ++ smallBuff, hes.append hmore, ?_⟩
    rw [Machine.run, foldl_append]
    exact hnext

/-- At 1000 bytes for each second, packets of 100 bytes leave at once in any number. -/
theorem small_packets_unpaced : tbfInit noModules (setInterfacePolicy idleIface .tbf) rateArgs = .ok tbfIface ∧
    ¬∃ k, ∀ es, tbfMachine.Along tbfMachine.enabled (tbfStart tbfIface 0) es →
    tbfMachine.Always (TbfRight k 1000) (tbfStart tbfIface 0) es := by
  refine ⟨tbfIface_init, ?_⟩
  rintro ⟨k, h⟩
  obtain ⟨es, hes, hsent⟩ := smallSent_run (16 * k + 1)
  have hwindow := (h es hes).last.window 2000000 2000000 (Int.le_refl _)
  rw [hsent.sent] at hwindow
  push_cast at hwindow
  omega

end Vde.L3
