import Vde.Proofs.L3Queues

/-!
# The token bucket of vde_l3

The private data of `tbf` as the structure that it is, and the calls of `tbf_enqueue` and `tbf_dequeue` as changes of
this structure. A packet of the length `mtu` is followed by a pause of `delta`, the time that it takes at the rate.
-/

namespace Vde.L3

open Function

/-- `struct tc_tbf`, without the count of dropped packets. -/
@[ext]
structure Tbf where
  qlen : BitVec 32
  limit : BitVec 32
  latency : BitVec 32
  rate : BitVec 32
  mtu : BitVec 32
  bytesOut : BitVec 32
  delta : Time
  lastOut : Time

def tbfTcpriv (priv : TcPriv) : Tbf where
  qlen := priv qlenAt
  limit := priv limitAt
  latency := priv latencyAt
  rate := priv rateAt
  mtu := priv mtuAt
  bytesOut := priv bytesOutAt
  delta := timeAt priv deltaAt
  lastOut := timeAt priv lastOutAt

namespace Tbf

def take (tbf : Tbf) (len : Nat) : Tbf :=
  let tbf := { tbf with qlen := tbf.qlen + BitVec.ofNat 32 len }
  if tbf.mtu.toNat < len then
    let mtu := BitVec.ofNat 32 len
    { tbf with
      mtu := mtu
      delta := ⟨tbf.delta.sec, ((1000000 * mtu) / tbf.rate).toNat⟩
      limit := if tbf.latency ≠ 0 then tbf.rate / mtu * tbf.latency else tbf.limit }
  else tbf

def send (tbf : Tbf) (now : Time) (len : Nat) : Tbf :=
  let out := BitVec.ofNat 32 len
  let tbf := { tbf with qlen := tbf.qlen - out, bytesOut := out }
  if out < tbf.mtu then tbf else { tbf with lastOut := now, bytesOut := out % tbf.mtu }

def due (tbf : Tbf) : Time := addT tbf.lastOut tbf.delta

end Tbf

structure Time.Valid (t : Time) : Prop where
  sec : -2 ^ 63 ≤ t.sec ∧ t.sec < 2 ^ 63
  usec : 0 ≤ t.usec ∧ t.usec < 1000000

structure Time.Fits (t : Time) : Prop where
  sec : -2 ^ 63 ≤ t.sec ∧ t.sec < 2 ^ 63
  usec : -2 ^ 63 ≤ t.usec ∧ t.usec < 2 ^ 63

variable {t : Time}

lemma Time.Valid.fits (h : t.Valid) : t.Fits := by
  have husec := h.usec
  exact ⟨h.sec, by omega, by omega⟩

def Time.micros (t : Time) : Int := t.sec * 1000000 + t.usec

/-! ## Words -/

lemma wide_storeWide (priv : TcPriv) (i : Nat) {x : Int} (hx : -2 ^ 63 ≤ x ∧ x < 2 ^ 63) :
    wide (storeWide priv i x) i = x := by
  have hjoin (bits : BitVec 64) : (bits.extractLsb' 32 32 ++ bits.extractLsb' 0 32 : BitVec 64) = bits :=
    @BitVec.extractLsb'_append_extractLsb' 32 32 bits
  simp only [wide, storeWide]
  rw [update_self, update_of_ne (by omega), update_self, hjoin, BitVec.toInt_ofInt]
  exact Int.bmod_eq_of_le (by omega) (by omega)

lemma wide_congr {priv priv' : TcPriv} {i : Nat} (h0 : priv i = priv' i) (h1 : priv (i + 1) = priv' (i + 1)) :
    wide priv i = wide priv' i := by
  rw [wide, wide, h0, h1]

lemma timeAt_storeTime (priv : TcPriv) (i : Nat) (ht : t.Fits) : timeAt (storeTime priv i t) i = t := by
  have hsec : wide (storeTime priv i t) i = t.sec := by
    rw [← wide_storeWide priv i ht.sec]
    exact wide_congr (storeWide_outside _ _ (by omega)) (storeWide_outside _ _ (by omega))
  have husec : wide (storeTime priv i t) (i + 2) = t.usec := wide_storeWide _ _ ht.usec
  rw [timeAt, hsec, husec]

section

variable (priv : TcPriv) (v : BitVec 32)

@[simp] lemma tbfTcpriv_qlen : tbfTcpriv (update priv qlenAt v) = { tbfTcpriv priv with qlen := v } := by
  simp (disch := decide) only [tbfTcpriv, timeAt, wide, update_of_ne, update_self]

@[simp] lemma tbfTcpriv_limit : tbfTcpriv (update priv limitAt v) = { tbfTcpriv priv with limit := v } := by
  simp (disch := decide) only [tbfTcpriv, timeAt, wide, update_of_ne, update_self]

@[simp] lemma tbfTcpriv_latency :
    tbfTcpriv (update priv latencyAt v) = { tbfTcpriv priv with latency := v } := by
  simp (disch := decide) only [tbfTcpriv, timeAt, wide, update_of_ne, update_self]

@[simp] lemma tbfTcpriv_rate : tbfTcpriv (update priv rateAt v) = { tbfTcpriv priv with rate := v } := by
  simp (disch := decide) only [tbfTcpriv, timeAt, wide, update_of_ne, update_self]

@[simp] lemma tbfTcpriv_mtu : tbfTcpriv (update priv mtuAt v) = { tbfTcpriv priv with mtu := v } := by
  simp (disch := decide) only [tbfTcpriv, timeAt, wide, update_of_ne, update_self]

@[simp] lemma tbfTcpriv_bytesOut :
    tbfTcpriv (update priv bytesOutAt v) = { tbfTcpriv priv with bytesOut := v } := by
  simp (disch := decide) only [tbfTcpriv, timeAt, wide, update_of_ne, update_self]

@[simp] lemma tbfTcpriv_dropped : tbfTcpriv (update priv tbfDroppedAt v) = tbfTcpriv priv := by
  simp (disch := decide) only [tbfTcpriv, timeAt, wide, update_of_ne]

lemma tbfTcpriv_deltaUsec {x : Int} (hx : 0 ≤ x ∧ x < 2 ^ 32) :
    tbfTcpriv (storeWide priv (deltaAt + 2) x) =
      { tbfTcpriv priv with delta := ⟨(tbfTcpriv priv).delta.sec, x⟩ } := by
  have husec : wide (storeWide priv (deltaAt + 2) x) (deltaAt + 2) = x := wide_storeWide _ _ (by omega)
  simp only [tbfTcpriv, timeAt, husec]
  simp (disch := decide) only [wide, storeWide_outside]

lemma tbfTcpriv_delta (ht : t.Fits) :
    tbfTcpriv (storeTime priv deltaAt t) = { tbfTcpriv priv with delta := t } := by
  have htime := timeAt_storeTime priv deltaAt ht
  simp only [tbfTcpriv, htime]
  simp (disch := decide) only [timeAt, wide, storeTime_outside]

lemma tbfTcpriv_lastOut (ht : t.Fits) :
    tbfTcpriv (storeTime priv lastOutAt t) = { tbfTcpriv priv with lastOut := t } := by
  have htime := timeAt_storeTime priv lastOutAt ht
  simp only [tbfTcpriv, htime]
  simp (disch := decide) only [timeAt, wide, storeTime_outside]

lemma tbfTcpriv_tbfPriv {env : TcEnv} (hnow : env.now.Valid) (rate latency : BitVec 32)
    (limit : Option (BitVec 32)) :
    ∃ limit', tbfTcpriv (tbfPriv env rate latency limit) =
      { qlen := 0, limit := limit', latency := latency, rate := rate, mtu := 1000, bytesOut := 0
        delta := ⟨0, ((1000000000 : BitVec 32) / rate).toNat⟩, lastOut := env.now } := by
  have hdelta : (⟨0, ((1000000000 : BitVec 32) / rate).toNat⟩ : Time).Fits := by
    have hlt := ((1000000000 : BitVec 32) / rate).isLt
    refine ⟨⟨show (-2 ^ 63 : Int) ≤ 0 by decide, show (0 : Int) < 2 ^ 63 by decide⟩, ?_, ?_⟩
    · exact Int.le_trans (by decide) (Int.natCast_nonneg _)
    change (((1000000000 : BitVec 32) / rate).toNat : Int) < 2 ^ 63
    omega
  simp only [tbfPriv, tbfTcpriv_delta _ hdelta, tbfTcpriv_qlen, tbfTcpriv_dropped, tbfTcpriv_bytesOut,
    tbfTcpriv_lastOut _ hnow.fits, tbfTcpriv_latency]
  by_cases hlatency : latency = 0
  · simp only [hlatency, ne_eq, not_true_eq_false, if_false, tbfTcpriv_mtu, tbfTcpriv_rate]
    exact ⟨_, rfl⟩
  simp only [hlatency, ne_eq, not_false_eq_true, if_true, tbfTcpriv_limit, tbfTcpriv_mtu, tbfTcpriv_rate]
  exact ⟨_, rfl⟩

end

/-! ## Calls -/

variable {vif : Iface} {vdb : Buff}

lemma enqueue_tbf (vdb : Buff) (h : vif.policy = .tbf) : enqueue vdb vif = tbfEnqueue vdb vif := by rw [enqueue, h]

lemma dequeue_tbf (now : Time) (h : vif.policy = .tbf) : dequeue now vif = tbfDequeue now vif := by rw [dequeue, h]

lemma tbfEnqueue_taken (vdb : Buff) (hroom : (tbfTcpriv vif.tcPriv).qlen < (tbfTcpriv vif.tcPriv).limit)
    (hrate : (tbfTcpriv vif.tcPriv).rate ≠ 0) :
    ∃ priv, tbfEnqueue vdb vif = some (true, { vif with qOut := vif.qOut ++ [vdb], tcPriv := priv }) ∧
      tbfTcpriv priv = (tbfTcpriv vif.tcPriv).take vdb.len := by
  have hmtu : (update vif.tcPriv qlenAt (vif.tcPriv qlenAt + BitVec.ofNat 32 vdb.len)) mtuAt =
      (tbfTcpriv vif.tcPriv).mtu := update_of_ne (by decide) _ _
  have hroom' : vif.tcPriv qlenAt < vif.tcPriv limitAt := hroom
  simp only [tbfEnqueue, if_pos hroom', hmtu]
  by_cases hgrow : (tbfTcpriv vif.tcPriv).mtu.toNat < vdb.len
  · have hlen := vdb.room
    have hpos : BitVec.ofNat 32 vdb.len ≠ 0 := by
      intro hzero
      have hnat := congrArg BitVec.toNat hzero
      rw [BitVec.toNat_ofNat, Nat.mod_eq_of_lt (by omega)] at hnat
      have h0 : (0 : BitVec 32).toNat = 0 := rfl
      omega
    have hrate' : (update vif.tcPriv qlenAt (vif.tcPriv qlenAt + BitVec.ofNat 32 vdb.len)) rateAt ≠ 0 := by
      rw [update_of_ne (by decide)]
      exact hrate
    rw [if_pos hgrow, tbfGrow, if_neg (fun h => h.elim hrate' (fun h' => hpos h'.2))]
    refine ⟨_, rfl, ?_⟩
    have hlat : (update vif.tcPriv qlenAt (vif.tcPriv qlenAt + BitVec.ofNat 32 vdb.len)) latencyAt =
        (tbfTcpriv vif.tcPriv).latency := update_of_ne (by decide) _ _
    have hr : (update vif.tcPriv qlenAt (vif.tcPriv qlenAt + BitVec.ofNat 32 vdb.len)) rateAt =
        (tbfTcpriv vif.tcPriv).rate := update_of_ne (by decide) _ _
    have hx (bits : BitVec 32) : 0 ≤ (bits.toNat : Int) ∧ (bits.toNat : Int) < 2 ^ 32 :=
      ⟨Int.natCast_nonneg _, by have hlt := bits.isLt; omega⟩
    rw [hlat, hr]
    by_cases hlatency : (tbfTcpriv vif.tcPriv).latency = 0
    · simp only [hlatency, ne_eq, not_true_eq_false, if_false, tbfTcpriv_deltaUsec _ (hx _), tbfTcpriv_mtu,
        tbfTcpriv_qlen, Tbf.take, if_pos hgrow]
      rfl
    simp only [hlatency, ne_eq, not_false_eq_true, if_true, tbfTcpriv_limit, tbfTcpriv_deltaUsec _ (hx _),
      tbfTcpriv_mtu, tbfTcpriv_qlen, Tbf.take, if_pos hgrow]
    rfl
  rw [if_neg hgrow]
  refine ⟨_, rfl, ?_⟩
  simp only [tbfTcpriv_qlen, Tbf.take, if_neg hgrow]
  rfl

lemma tbfEnqueue_dropped (vdb : Buff) (hfull : ¬(tbfTcpriv vif.tcPriv).qlen < (tbfTcpriv vif.tcPriv).limit) :
    ∃ priv, tbfEnqueue vdb vif = some (false, { vif with tcPriv := priv }) ∧
      tbfTcpriv priv = tbfTcpriv vif.tcPriv := by
  have hfull' : ¬vif.tcPriv qlenAt < vif.tcPriv limitAt := hfull
  simp only [tbfEnqueue, if_neg hfull']
  exact ⟨_, rfl, tbfTcpriv_dropped _ _⟩

lemma tbfDequeue_early {now : Time} (h : now.before (tbfTcpriv vif.tcPriv).due = true) :
    tbfDequeue now vif = ⟨vif, [], false⟩ := by
  have h' : now.before (tbfWhen vif) = true := h
  rw [tbfDequeue, if_pos h']

lemma tbfDequeue_sent {now : Time} {rest : List Buff} (h : ¬now.before (tbfTcpriv vif.tcPriv).due = true)
    (hq : vif.qOut = vdb :: rest) (hmtu : (tbfTcpriv vif.tcPriv).mtu ≠ 0) (hnow : now.Valid) :
    ∃ priv, tbfDequeue now vif = ⟨{ vif with qOut := rest, tcPriv := priv }, [vdb], false⟩ ∧
      tbfTcpriv priv = (tbfTcpriv vif.tcPriv).send now vdb.len := by
  have h' : ¬now.before (tbfWhen vif) = true := h
  obtain ⟨priv, hpriv⟩ : ∃ priv, priv =
      update (update vif.tcPriv bytesOutAt (BitVec.ofNat 32 vdb.len))
        qlenAt (vif.tcPriv qlenAt - BitVec.ofNat 32 vdb.len) := ⟨_, rfl⟩
  have htbf : tbfTcpriv priv = { tbfTcpriv vif.tcPriv with
      qlen := (tbfTcpriv vif.tcPriv).qlen - BitVec.ofNat 32 vdb.len
      bytesOut := BitVec.ofNat 32 vdb.len } := by
    rw [hpriv, tbfTcpriv_qlen, tbfTcpriv_bytesOut]
    rfl
  have hqlen : (update vif.tcPriv bytesOutAt (BitVec.ofNat 32 vdb.len)) qlenAt = vif.tcPriv qlenAt :=
    update_of_ne (by decide) _ _
  have hpmtu : priv mtuAt = (tbfTcpriv vif.tcPriv).mtu := congrArg Tbf.mtu htbf
  have hpout : priv bytesOutAt = BitVec.ofNat 32 vdb.len := congrArg Tbf.bytesOut htbf
  rw [tbfDequeue, if_neg h', hq]
  simp only [hqlen, ← hpriv, hpmtu, if_neg hmtu]
  refine ⟨_, rfl, ?_⟩
  rw [tbfSpend, hpmtu, hpout, Tbf.send]
  by_cases hless : BitVec.ofNat 32 vdb.len < (tbfTcpriv vif.tcPriv).mtu
  · simp only [if_pos hless]
    exact htbf
  · simp only [if_neg hless, tbfTcpriv_bytesOut, tbfTcpriv_lastOut _ hnow.fits, htbf]

end Vde.L3
