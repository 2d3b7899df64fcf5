import Vde.L3Mgmt

/-!
# Commands that fail and policies that change

A handler stores what it has read so far before it looks at the rest of its text, so a command that
ends with the usage message may have changed something. A new queueing policy finds the packets that
wait; it sends them in order, but its counters begin at zero.
-/

namespace Vde.L3

open List Function

/-- What a command may change of an interface: the addresses, the functions and the private data of the
policy. -/
def Iface.settings (vif : Iface) : BitVec 32 × BitVec 32 × Policy × TcPriv :=
  (vif.ipaddr, vif.nm, vif.policy, vif.tcPriv)

structure Kept (r r' : Router) : Prop where
  ifaces : r'.interfaces.map Iface.settings = r.interfaces.map Iface.settings
  routes : r'.routeTable = r.routeTable
  gateway : r'.defaultGw = r.defaultGw

def Counted (vif : Iface) : Prop :=
  match vif.policy with
  | .ufifo => True
  | .pfifo => (vif.tcPriv qlenAt).toNat = vif.qOut.length
  | .bfifo => (vif.tcPriv qlenAt).toNat = (vif.qOut.map Buff.len).sum
  | .tbf => (vif.tcPriv qlenAt).toNat = (vif.qOut.map Buff.len).sum

/-! ## A queue at work -/

/-- A packet for the interface, or a turn in which its switch can take one. -/
inductive QueueEvent where
  | enqueue (vdb : Buff)
  | dequeue (now : Time)

/-- The interface, the packets taken and the packets sent, the oldest first. -/
structure QueueRun where
  vif : Iface
  accepted : List Buff
  sent : List Buff
  fault : Bool

def queueStart (vif : Iface) : QueueRun := { vif := vif, accepted := [], sent := [], fault := false }

def queueStep (q : QueueRun) : QueueEvent → QueueRun
  | .enqueue vdb =>
    match enqueue vdb q.vif with
    | none => { q with fault := true }
    | some (taken, vif) =>
      { q with vif := vif, accepted := if taken then q.accepted ++ [vdb] else q.accepted }
  | .dequeue now =>
    if q.vif.qOut = [] then q
    else
      let d := dequeue now q.vif
      { q with vif := d.vif, sent := q.sent ++ d.sent, fault := d.fault }

def queueMachine : Machine QueueRun QueueEvent :=
  { enabled := fun q _ => q.fault = false, step := queueStep }

/-- In a run that began with the packets `waiting`: nothing is lost and the order is kept, a fault finds
an empty queue, and from some time on a turn sends the first packet. -/
structure InOrder (waiting : List Buff) (q : QueueRun) : Prop where
  order : q.sent ++ q.vif.qOut = waiting ++ q.accepted
  late : q.fault = true → q.vif.qOut = []
  due : ∃ t : Time, ∀ now, now.before t = false → ∀ vdb rest, q.vif.qOut = vdb :: rest →
    (dequeue now q.vif).sent = [vdb]

def Drains (vif : Iface) : Prop :=
  ∀ es, queueMachine.Along queueMachine.enabled (queueStart vif) es →
    InOrder vif.qOut (queueMachine.run (queueStart vif) es)

/-- A command that reports an error keeps everything; one that sets a policy leaves the waiting packets
to it, which sends them in order and has counted them. -/
structure ManagedRight (env : TcEnv) (r : Router) (s : List Char) (c : Command) : Prop where
  error : (handle env r s c).reply = .usage → Kept r (handle env r s c).router
  success : ∀ i, (handle env r s c).reply = .policySet i →
    ∀ vif, (handle env r s c).router.interfaces[i]? = some vif → vif.qOut ≠ [] → Drains vif ∧ Counted vif

/-! ## The condition -/

def HalfSet (r : Router) (iface addr : List Char) (nm : Option (List Char)) : Prop :=
  ['v', 'd'].isPrefixOf iface = true ∧ ∃ i pi, getInterface r (atoi (iface.drop 2)) = some (i, pi) ∧
    unicastIp (ascii2ip addr) ≠ 0 ∧ unicastIp (ascii2ip addr) ≠ pi.ipaddr ∧ nm.map ascii2nm = some 0

def HalfConfigured (r : Router) (s : List Char) : Prop :=
  s.length ≠ 1 ∧ ∃ iface addr nm, ifconfigArgs s.dropLast = some (iface, addr, some nm) ∧ HalfSet r iface addr nm

def GatewayLost (r : Router) (s : List Char) : Prop :=
  defaultTag.isPrefixOf s = true ∧ unicastIp (ascii2ip (s.drop 11)) = 0 ∧ r.defaultGw ≠ 0

structure Applies (env : TcEnv) (r : Router) (s : List Char) (i : Nat) (pi : Iface) (pp : Policy)
    (args : List Char) : Prop where
  long : 4 < s.dropLast.length
  set : ['s', 'e', 't'].isPrefixOf s.dropLast = true
  reaches : ∃ iface ifnum policy r', tcArgs (s.dropLast.drop 4) = (iface, some (policy, args)) ∧
    ['v', 'd'].isPrefixOf iface = true ∧ scanInt (iface.drop 2) = some ifnum ∧ 1 ≤ policy.length ∧
    getInterface r ifnum = some (i, pi) ∧ getpolicy env r policy = some (some pp, r')

def PolicyRefused (env : TcEnv) (r : Router) (s : List Char) : Prop :=
  ∃ i pi pp args vif, Applies env r s i pi pp args ∧
    policyInit env pp (setInterfacePolicy pi pp) args = .failed vif ∧ pi.policy ≠ pp

/-- A policy with a counter is set while packets wait; for `bfifo` and `tbf` bytes. -/
def PolicyMiscounts (env : TcEnv) (r : Router) (s : List Char) : Prop :=
  ∃ i pi pp args vif, Applies env r s i pi pp args ∧
    policyInit env pp (setInterfacePolicy pi pp) args = .ok vif ∧
    (pp = .pfifo ∧ pi.qOut ≠ [] ∨ (pp = .bfifo ∨ pp = .tbf) ∧ (pi.qOut.map Buff.len).sum ≠ 0)

def ManageOk (env : TcEnv) (r : Router) (s : List Char) : Command → Prop
  | .ifconfig => ¬HalfConfigured r s
  | .route => ¬GatewayLost r s
  | .tc => ¬PolicyRefused env r s ∧ ¬PolicyMiscounts env r s

/-! ## Errors -/

lemma Kept.refl (r : Router) : Kept r r := ⟨rfl, rfl, rfl⟩

variable {r : Router} {i : Nat} {vif : Iface}

lemma getInterface_get {id : Int} (h : getInterface r id = some (i, vif)) : r.interfaces[i]? = some vif := by
  obtain ⟨_, _, hget⟩ := firstIface_spec h
  exact hget

lemma kept_set_iff {r' : Router} {pi : Iface} (vif : Iface) (hget : r.interfaces[i]? = some pi)
    (hifaces : r'.interfaces = r.interfaces.set i vif) (hroutes : r'.routeTable = r.routeTable)
    (hgw : r'.defaultGw = r.defaultGw) : Kept r r' ↔ vif.settings = pi.settings := by
  obtain ⟨hlt, hpi⟩ := List.getElem?_eq_some_iff.mp hget
  have hlt' : i < (r.interfaces.map Iface.settings).length := by rwa [length_map]
  constructor
  · intro h
    have hat := congrArg (fun l => l[i]?) h.ifaces
    rw [hifaces] at hat
    simp only [map_set, getElem?_set_self hlt', getElem?_map, hget, Option.map_some] at hat
    exact Option.some.inj hat
  intro h
  have hself : pi.settings = (r.interfaces.map Iface.settings)[i] := by rw [getElem_map, hpi]
  constructor
  · rw [hifaces, map_set, h, hself]
    exact set_getElem_self hlt'
  · exact hroutes
  · exact hgw

lemma ifconfigSet_error_iff (r : Router) (iface addr : List Char) (nm : Option (List Char)) :
    ((ifconfigSet r iface addr nm).reply = .usage → Kept r (ifconfigSet r iface addr nm).router) ↔
    ¬HalfSet r iface addr nm := by
  unfold ifconfigSet
  by_cases hvd : ['v', 'd'].isPrefixOf iface = true
  · rw [if_neg (not_not.mpr hvd)]
    cases hpi : getInterface r (atoi (iface.drop 2)) with
    | none =>
      apply iff_of_true (fun _ => .refl r)
      rintro ⟨_, i, pi, h, _⟩
      rw [hpi] at h
      cases h
    | some place =>
      obtain ⟨i, pi⟩ := place
      by_cases haddr : unicastIp (ascii2ip addr) = 0
      · simp only [if_pos haddr]
        apply iff_of_true (fun _ => .refl r)
        rintro ⟨_, _, _, _, h, _⟩
        exact h haddr
      simp only [if_neg haddr]
      cases nm with
      | none =>
        apply iff_of_true (fun h => by cases h)
        rintro ⟨_, _, _, _, _, _, h⟩
        cases h
      | some nm =>
        by_cases hnm : ascii2nm nm = 0
        · simp only [if_pos hnm]
          have hkept : Kept r { r with
              interfaces := r.interfaces.set i { pi with ipaddr := unicastIp (ascii2ip addr) } } ↔
              ({ pi with ipaddr := unicastIp (ascii2ip addr) } : Iface).settings = pi.settings :=
            kept_set_iff _ (getInterface_get hpi) rfl rfl rfl
          have hsame : ({ pi with ipaddr := unicastIp (ascii2ip addr) } : Iface).settings = pi.settings ↔
              unicastIp (ascii2ip addr) = pi.ipaddr := by
            simp [Iface.settings]
          rw [hsame] at hkept
          constructor
          · rintro h ⟨_, i', pi', hpi', _, hdiff, _⟩
            rw [hpi] at hpi'
            cases hpi'
            exact hdiff (hkept.mp (h trivial))
          intro h _
          apply hkept.mpr
          by_contra hdiff
          exact h ⟨hvd, i, pi, hpi, haddr, hdiff, congrArg some hnm⟩
        simp only [if_neg hnm]
        apply iff_of_true (fun h => by cases h)
        rintro ⟨_, _, _, _, _, _, h⟩
        exact hnm (Option.some.inj h)
  · rw [if_pos hvd]
    exact iff_of_true (fun _ => .refl r) (fun h => hvd h.1)

lemma ifconfig_error_iff (r : Router) (s : List Char) :
    ((ifconfig r s).reply = .usage → Kept r (ifconfig r s).router) ↔ ¬HalfConfigured r s := by
  unfold ifconfig HalfConfigured
  by_cases hlen : s.length = 1
  · rw [if_pos hlen]
    exact iff_of_true (fun h => by cases h) (fun h => h.1 hlen)
  rw [if_neg hlen]
  cases hargs : ifconfigArgs s.dropLast with
  | none =>
    apply iff_of_true
    · intro _
      simp only
      split <;> exact .refl r
    rintro ⟨_, iface, addr, nm, h, _⟩
    cases h
  | some args =>
    obtain ⟨iface, addr, nm⟩ := args
    cases nm with
    | none =>
      apply iff_of_true (fun _ => .refl r)
      rintro ⟨_, iface, addr, nm, h, _⟩
      cases h
    | some nm =>
      simp only
      rw [ifconfigSet_error_iff]
      apply not_congr
      constructor
      · exact fun h => ⟨hlen, iface, addr, nm, rfl, h⟩
      rintro ⟨_, iface', addr', nm', h, hset⟩
      cases h
      exact hset

lemma routeNet_usage {s : List Char} (h : (routeNet r s).reply = .usage) : (routeNet r s).router = r := by
  unfold routeNet at h ⊢
  cases hnet : cut '/' s with
  | none => rfl
  | some p =>
    obtain ⟨addr, nm⟩ := p
    rw [hnet] at h
    cases hgw : cut ':' nm with
    | none => simp only [hgw]
    | some q =>
      simp only [hgw] at h
      split at h
      · cases h
      split at h
      · cases h
      · cases h

lemma route_error_iff (r : Router) (s : List Char) :
    ((route r s).reply = .usage → Kept r (route r s).router) ↔ ¬GatewayLost r s := by
  unfold route GatewayLost
  by_cases hlen : s.length = 1
  · rw [if_pos hlen]
    apply iff_of_true (fun _ => .refl r)
    rintro ⟨htag, _⟩
    have hle := ( isPrefixOf_iff_prefix.mp htag).length_le
    rw [hlen] at hle
    exact absurd hle (by decide)
  rw [if_neg hlen]
  by_cases hlist : s.length = 5 ∧ listTag.isPrefixOf s = true ∧
      (r.routeWild = true ∨ r.defaultGw ≠ 0 ∧ isNeightbor r r.defaultGw = none)
  · rw [if_pos hlist]
    apply iff_of_true (fun h => by cases h)
    rintro ⟨htag, _⟩
    have hle := ( isPrefixOf_iff_prefix.mp htag).length_le
    rw [hlist.1] at hle
    exact absurd hle (by decide)
  rw [if_neg hlist]
  by_cases htag : defaultTag.isPrefixOf s = true
  · rw [if_pos htag]
    simp only
    by_cases hgw : unicastIp (ascii2ip (s.drop 11)) = 0
    · rw [if_pos hgw, hgw]
      constructor
      · rintro h ⟨_, _, hold⟩
        exact hold (h rfl).gateway.symm
      intro h _
      have hold : r.defaultGw = 0 := by
        by_contra hold
        exact h ⟨htag, rfl, hold⟩
      exact ⟨rfl, rfl, hold.symm⟩
    rw [if_neg hgw]
    exact iff_of_true (fun h => by cases h) (fun h => hgw h.2.1)
  rw [if_neg htag]
  apply iff_of_true
  · split
    · intro h
      rw [routeNet_usage h]
      exact .refl r
    · exact fun _ => .refl r
  · exact fun h => htag h.1

/-! ## Policies in their initialisation -/

variable {env : TcEnv} {pp : Policy} {vif' : Iface} {args : List Char}

lemma policyInit_failed (h : policyInit env pp vif args = .failed vif') : vif'.settings = vif.settings := by
  cases pp with
  | ufifo =>
    simp only [policyInit, ufifoInit] at h
    split at h <;> cases h
    rfl
  | pfifo =>
    simp only [policyInit, pfifoInit, fifoInit] at h
    split at h
    · cases h
      rfl
    split at h <;> cases h
    rfl
  | bfifo =>
    simp only [policyInit, bfifoInit, fifoInit] at h
    split at h
    · cases h
      rfl
    split at h <;> cases h
    rfl
  | tbf =>
    have hsame : ∀ {v : Iface}, InitResult.failed vif = .failed v → v.settings = vif.settings := by
      intro v hv
      cases hv
      rfl
    simp only [policyInit, tbfInit] at h
    repeat' split at h
    all_goals first | exact hsame h | cases h

def TbfReady (priv : TcPriv) : Prop := priv rateAt ≠ 0 ∧ priv mtuAt ≠ 0

structure Initialised (pp : Policy) (vif vif' : Iface) : Prop where
  queue : vif'.qOut = vif.qOut
  policy : vif'.policy = vif.policy
  counter : pp ≠ .ufifo → vif'.tcPriv qlenAt = 0
  ready : pp = .tbf → TbfReady vif'.tcPriv

lemma storeWide_outside (priv : TcPriv) {j : Nat} (x : Int) (h : j < i ∨ i + 1 < j) :
    storeWide priv i x j = priv j := by
  simp only [storeWide]
  rw [update_of_ne (by omega), update_of_ne (by omega)]

lemma storeTime_outside (priv : TcPriv) {j : Nat} (t : Time) (h : j < i ∨ i + 3 < j) :
    storeTime priv i t j = priv j := by
  simp only [storeTime]
  rw [storeWide_outside _ _ (by omega), storeWide_outside _ _ (by omega)]

lemma tbfPriv_words (env : TcEnv) (rate latency : BitVec 32) (limit : Option (BitVec 32)) :
    tbfPriv env rate latency limit qlenAt = 0 ∧ tbfPriv env rate latency limit rateAt = rate ∧
    tbfPriv env rate latency limit mtuAt = 1000 := by
  simp only [tbfPriv]
  constructor
  · simp (disch := decide) only [storeTime_outside, update_of_ne, update_self]
  constructor
  · simp (disch := decide) only [storeTime_outside, update_of_ne]
    split <;> simp (disch := decide) only [update_of_ne, update_self]
  simp (disch := decide) only [storeTime_outside, update_of_ne]
  split <;> simp (disch := decide) only [update_of_ne, update_self]

lemma fifoInit_ok (h : fifoInit pp vif args = .ok vif') (hpp : pp ≠ .tbf) : Initialised pp vif vif' := by
  unfold fifoInit at h
  split at h
  · cases h
  split at h
  · cases h
  cases h
  refine ⟨rfl, rfl, fun _ => ?_, fun htbf => absurd htbf hpp⟩
  simp (disch := decide) only [update_of_ne, update_self]

lemma tbfPriv_initialised (env : TcEnv) (vif : Iface) {rate : BitVec 32} (latency : BitVec 32)
    (limit : Option (BitVec 32)) (hrate : ¬rate < 5000) :
    Initialised .tbf vif { vif with policyName := .tbf, tcPriv := tbfPriv env (rate >>> 3) latency limit } := by
  obtain ⟨hqlen, hr, hmtu⟩ := tbfPriv_words env (rate >>> 3) latency limit
  refine ⟨rfl, rfl, fun _ => hqlen, fun _ => ⟨?_, ?_⟩⟩
  · simp only [hr]
    intro hzero
    apply hrate
    have hdiv := congrArg BitVec.toNat hzero
    rw [BitVec.toNat_ushiftRight, Nat.shiftRight_eq_div_pow] at hdiv
    rw [BitVec.lt_def]
    have h5000 : (5000 : BitVec 32).toNat = 5000 := rfl
    have h0 : (0 : BitVec 32).toNat = 0 := rfl
    omega
  simp only [hmtu]
  decide

lemma tbfInit_ok (h : tbfInit env vif args = .ok vif') :
    ∃ (rate latency : BitVec 32) (limit : Option (BitVec 32)), ¬rate < 5000 ∧
      vif' = { vif with policyName := .tbf, tcPriv := tbfPriv env (rate >>> 3) latency limit } := by
  simp only [tbfInit] at h
  split at h
  · cases h
  split at h
  · cases h
  split at h
  · cases h
  split at h
  · cases h
  rename_i hrate
  split at h
  · cases h
  split at h
  · split at h
    · cases h
    cases h
    exact ⟨_, _, _, hrate, rfl⟩
  split at h
  · split at h
    · cases h
    cases h
    exact ⟨_, _, _, hrate, rfl⟩
  · cases h

lemma policyInit_ok (h : policyInit env pp vif args = .ok vif') : Initialised pp vif vif' := by
  cases pp with
  | ufifo =>
    simp only [policyInit, ufifoInit] at h
    split at h <;> cases h
    exact ⟨rfl, rfl, fun hne => absurd rfl hne, fun htbf => (by cases htbf)⟩
  | pfifo => exact fifoInit_ok h (by decide)
  | bfifo => exact fifoInit_ok h (by decide)
  | tbf =>
    obtain ⟨rate, latency, limit, hrate, rfl⟩ := tbfInit_ok h
    exact tbfPriv_initialised env vif latency limit hrate

/-! ## Queues drain -/

lemma tbfGrow_ready {vdb : Buff} {priv : TcPriv} (hrate : priv rateAt ≠ 0) (hpos : 0 < vdb.len) :
    ∃ priv', tbfGrow vdb priv = some priv' ∧ TbfReady priv' := by
  have hroom := vdb.room
  have hmtu : BitVec.ofNat 32 vdb.len ≠ 0 := by
    intro hzero
    have hnat := congrArg BitVec.toNat hzero
    rw [BitVec.toNat_ofNat, Nat.mod_eq_of_lt (by omega)] at hnat
    have h0 : (0 : BitVec 32).toNat = 0 := rfl
    omega
  unfold tbfGrow
  rw [if_neg (fun h => h.elim hrate (fun h' => hmtu h'.2))]
  refine ⟨_, rfl, ?_⟩
  split
  · constructor
    · simp (disch := decide) only [storeWide_outside, update_of_ne]
      exact hrate
    simp (disch := decide) only [storeWide_outside, update_of_ne, update_self]
    exact hmtu
  constructor
  · simp (disch := decide) only [storeWide_outside, update_of_ne]
    exact hrate
  simp (disch := decide) only [storeWide_outside, update_self]
  exact hmtu

lemma enqueue_spec (vdb : Buff) (h : vif.policy = .tbf → TbfReady vif.tcPriv) : ∃ taken vif',
    enqueue vdb vif = some (taken, vif') ∧ vif'.qOut = (if taken then vif.qOut ++ [vdb] else vif.qOut) ∧
    vif'.policy = vif.policy ∧ (vif'.policy = .tbf → TbfReady vif'.tcPriv) := by
  unfold enqueue
  cases hp : vif.policy with
  | ufifo => exact ⟨true, _, rfl, rfl, hp, fun htbf => (by cases hp.symm.trans htbf)⟩
  | pfifo =>
    simp only [pfifoEnqueue]
    split
    · exact ⟨true, _, rfl, rfl, hp, fun htbf => (by cases hp.symm.trans htbf)⟩
    · exact ⟨false, _, rfl, rfl, hp, fun htbf => (by cases hp.symm.trans htbf)⟩
  | bfifo =>
    simp only [bfifoEnqueue]
    split
    · exact ⟨true, _, rfl, rfl, hp, fun htbf => (by cases hp.symm.trans htbf)⟩
    · exact ⟨false, _, rfl, rfl, hp, fun htbf => (by cases hp.symm.trans htbf)⟩
  | tbf =>
    obtain ⟨hrate, hmtu⟩ := h hp
    simp only [tbfEnqueue]
    split
    · split
      · rename_i hgrow
        have hrate' : update vif.tcPriv qlenAt (vif.tcPriv qlenAt + BitVec.ofNat 32 vdb.len) rateAt ≠ 0 := by
          rw [update_of_ne (by decide)]
          exact hrate
        obtain ⟨priv, hpriv, hready⟩ := tbfGrow_ready hrate' (Nat.zero_lt_of_lt hgrow)
        rw [hpriv]
        exact ⟨true, _, rfl, rfl, hp, fun _ => hready⟩
      refine ⟨true, _, rfl, rfl, hp, fun _ => ⟨?_, ?_⟩⟩
      · simp (disch := decide) only [ufifoEnqueue, update_of_ne]
        exact hrate
      simp (disch := decide) only [ufifoEnqueue, update_of_ne]
      exact hmtu
    refine ⟨false, _, rfl, rfl, hp, fun _ => ⟨?_, ?_⟩⟩
    · simp (disch := decide) only [dropAt, update_of_ne]
      exact hrate
    simp (disch := decide) only [dropAt, update_of_ne]
    exact hmtu

/-- What a call of `dequeue` does with the queue `vdb :: rest`: it sends the first packet, or for `tbf`
nothing when it is too early. -/
structure Takes (now : Time) (vif : Iface) (vdb : Buff) (rest : List Buff) (d : Dequeued) : Prop where
  takes : d.sent = [vdb] ∧ d.vif.qOut = rest ∨ d.sent = [] ∧ d.vif.qOut = vdb :: rest
  due : now.before (tbfWhen vif) = false → d.sent = [vdb]
  policy : d.vif.policy = vif.policy
  ready : d.vif.policy = .tbf → TbfReady d.vif.tcPriv
  late : d.fault = true → d.vif.qOut = []

lemma dequeue_spec (now : Time) (h : vif.policy = .tbf → TbfReady vif.tcPriv) {vdb : Buff}
    {rest : List Buff} (hq : vif.qOut = vdb :: rest) : Takes now vif vdb rest (dequeue now vif) := by
  have hufifo : ufifoDequeue vif = ⟨{ vif with qOut := rest }, [vdb], false⟩ := by
    unfold ufifoDequeue
    rw [hq]
  unfold dequeue
  cases hp : vif.policy with
  | ufifo =>
    simp only [hufifo]
    exact ⟨Or.inl ⟨rfl, rfl⟩, fun _ => rfl, rfl, fun htbf => (by cases hp.symm.trans htbf), fun hf => (by cases hf)⟩
  | pfifo =>
    simp only [pfifoDequeue, hufifo]
    split
    · exact ⟨Or.inl ⟨rfl, rfl⟩, fun _ => rfl, rfl, fun htbf => (by cases hp.symm.trans htbf), fun hf => (by cases hf)⟩
    · exact ⟨Or.inl ⟨rfl, rfl⟩, fun _ => rfl, rfl, fun htbf => (by cases hp.symm.trans htbf), fun hf => (by cases hf)⟩
  | bfifo =>
    simp only [bfifoDequeue, hufifo]
    split
    · split
      · exact ⟨Or.inl ⟨rfl, rfl⟩, fun _ => rfl, rfl, fun htbf => (by cases hp.symm.trans htbf), fun _ => rfl⟩
      · exact ⟨Or.inl ⟨rfl, rfl⟩, fun _ => rfl, rfl, fun htbf => (by cases hp.symm.trans htbf), fun hf => (by cases hf)⟩
    · exact ⟨Or.inl ⟨rfl, rfl⟩, fun _ => rfl, rfl, fun htbf => (by cases hp.symm.trans htbf), fun hf => (by cases hf)⟩
  | tbf =>
    obtain ⟨hrate, hmtu⟩ := h hp
    simp only [tbfDequeue, hq]
    by_cases hearly : now.before (tbfWhen vif) = true
    · rw [if_pos hearly]
      exact ⟨Or.inr ⟨rfl, hq⟩, fun hlate => (by cases hearly.symm.trans hlate), rfl, fun _ => ⟨hrate, hmtu⟩,
        fun hf => (by cases hf)⟩
    rw [if_neg hearly]
    have hmtu' : update (update vif.tcPriv bytesOutAt (BitVec.ofNat 32 vdb.len)) qlenAt
        (update vif.tcPriv bytesOutAt (BitVec.ofNat 32 vdb.len) qlenAt - BitVec.ofNat 32 vdb.len)
        mtuAt ≠ 0 := by
      simp (disch := decide) only [update_of_ne]
      exact hmtu
    rw [if_neg hmtu']
    refine ⟨Or.inl ⟨rfl, rfl⟩, fun _ => rfl, rfl, fun _ => ?_, fun hf => (by cases hf)⟩
    unfold tbfSpend
    split
    · constructor
      · simp (disch := decide) only [update_of_ne]
        exact hrate
      simp (disch := decide) only [update_of_ne]
      exact hmtu
    constructor
    · simp (disch := decide) only [storeTime_outside, update_of_ne]
      exact hrate
    simp (disch := decide) only [storeTime_outside, update_of_ne]
    exact hmtu

structure QueueInv (waiting : List Buff) (q : QueueRun) : Prop where
  order : q.sent ++ q.vif.qOut = waiting ++ q.accepted
  late : q.fault = true → q.vif.qOut = []
  ready : q.vif.policy = .tbf → TbfReady q.vif.tcPriv

lemma QueueInv.step {waiting : List Buff} {q : QueueRun} (h : QueueInv waiting q) (e : QueueEvent)
    (hrun : q.fault = false) : QueueInv waiting (queueStep q e) := by
  cases e with
  | enqueue vdb =>
    obtain ⟨taken, vif', henq, hqueue, _, hready⟩ := enqueue_spec vdb h.ready
    simp only [queueStep, henq]
    refine ⟨?_, fun hf => (by cases hrun.symm.trans hf), hready⟩
    rw [hqueue]
    cases taken with
    | false => exact h.order
    | true =>
      simp only [if_true]
      rw [← append_assoc, h.order, append_assoc]
  | dequeue now =>
    cases hq : q.vif.qOut with
    | nil =>
      simp only [queueStep, hq, if_true]
      exact h
    | cons vdb rest =>
      have htakes := dequeue_spec now h.ready hq
      simp only [queueStep, hq, reduceCtorEq, if_false]
      refine ⟨?_, htakes.late, htakes.ready⟩
      have horder := h.order
      rw [hq] at horder
      rcases htakes.takes with ⟨hsent, hrest⟩ | ⟨hsent, hrest⟩
      · rw [hsent, hrest, ← horder, append_assoc]
        rfl
      rw [hsent, hrest, append_nil]
      exact horder

lemma drains_of_ready (h : vif.policy = .tbf → TbfReady vif.tcPriv) : Drains vif := by
  intro es hes
  have hreach := Machine.Reach.run (.init (queueStart vif) (rfl : queueStart vif = queueStart vif)) es hes
  have hinv := hreach.invariant (QueueInv vif.qOut)
    (fun q hq => by
      rw [← hq]
      exact ⟨(append_nil _).symm, fun hf => (by cases hf), h⟩)
    (fun q e hq he => hq.step e he)
  refine ⟨hinv.order, hinv.late, tbfWhen (queueMachine.run (queueStart vif) es).vif, ?_⟩
  intro now hlate vdb rest hq
  exact (dequeue_spec now hinv.ready hq).due hlate

/-! ## tc set -/

lemma policyRegister_kept (new : Policy) (r : Router) : (policyRegister new r).interfaces = r.interfaces ∧
    (policyRegister new r).routeTable = r.routeTable ∧ (policyRegister new r).defaultGw = r.defaultGw := by
  unfold policyRegister
  split
  · split <;> exact ⟨rfl, rfl, rfl⟩
  · exact ⟨rfl, rfl, rfl⟩

lemma getpolicy_kept {r' : Router} {name : List Char} {pp : Option Policy}
    (h : getpolicy env r name = some (pp, r')) :
    r'.interfaces = r.interfaces ∧ r'.routeTable = r.routeTable ∧ r'.defaultGw = r.defaultGw := by
  unfold getpolicy at h
  split at h
  · cases h
    exact ⟨rfl, rfl, rfl⟩
  split at h
  · cases h
  split at h
  · cases h
    exact ⟨rfl, rfl, rfl⟩
  cases h
  exact policyRegister_kept _ r

lemma Applies.unique {s : List Char} {i' : Nat} {pi pi' : Iface}
    {pp' : Policy} {args' : List Char} (h : Applies env r s i pi pp args)
    (h' : Applies env r s i' pi' pp' args') : i = i' ∧ pi = pi' ∧ pp = pp' ∧ args = args' := by
  obtain ⟨iface, ifnum, policy, r₁, hargs, _, hnum, _, hpi, hpp⟩ := h.reaches
  obtain ⟨iface', ifnum', policy', r₁', hargs', _, hnum', _, hpi', hpp'⟩ := h'.reaches
  cases hargs.symm.trans hargs'
  cases hnum.symm.trans hnum'
  cases hpi.symm.trans hpi'
  cases hpp.symm.trans hpp'
  exact ⟨rfl, rfl, rfl, rfl⟩

/-- The ways through `traffic_control`: it ends in neither of the two replies in question, or with the usage
message before it gets to an interface, or it sets the policy. -/
inductive TcCase (env : TcEnv) (r : Router) (s : List Char) : Answer → Prop
  | other (a : Answer) (husage : a.reply ≠ .usage) (hset : ∀ i, a.reply ≠ .policySet i)
      (hno : ∀ i pi pp args, ¬Applies env r s i pi pp args) : TcCase env r s a
  | refused (r' : Router) (hkept : Kept r r') (hno : ∀ i pi pp args, ¬Applies env r s i pi pp args) :
      TcCase env r s ⟨.usage, r'⟩
  | applies (r' : Router) (i : Nat) (pi : Iface) (pp : Policy) (args : List Char)
      (h : Applies env r s i pi pp args) (hsame : r'.interfaces = r.interfaces ∧ r'.routeTable = r.routeTable ∧
        r'.defaultGw = r.defaultGw) : TcCase env r s (tcApply env r' i pi pp args)

lemma tcSet_cases (env : TcEnv) (r : Router) (s : List Char) (hlong : 4 < s.dropLast.length)
    (hset : ['s', 'e', 't'].isPrefixOf s.dropLast = true) : TcCase env r s (tcSet env r (s.dropLast.drop 4)) := by
  unfold tcSet
  cases hargs : tcArgs (s.dropLast.drop 4) with
  | mk iface rest =>
    cases hvd : ['v', 'd'].isPrefixOf iface with
    | false =>
      simp only [hvd]
      refine .refused r (.refl r) ?_
      rintro i pi pp args ⟨_, _, iface', ifnum, policy, r', h, hvd', _⟩
      cases hargs.symm.trans h
      cases hvd.symm.trans hvd'
    | true =>
      cases hnum : scanInt (iface.drop 2) with
      | none =>
        simp only [hvd, hnum]
        refine .refused r (.refl r) ?_
        rintro i pi pp args ⟨_, _, iface', ifnum, policy, r', h, _, hnum', _⟩
        cases hargs.symm.trans h
        cases hnum.symm.trans hnum'
      | some ifnum =>
        cases rest with
        | none =>
          simp only [hvd, hnum]
          refine .other _ (fun h => by cases h) (fun i h => by cases h) ?_
          rintro i pi pp args ⟨_, _, iface', ifnum, policy, r', h, _⟩
          cases hargs.symm.trans h
        | some p =>
          obtain ⟨policy, args⟩ := p
          simp only [hvd, hnum]
          by_cases hearly : policy.length < 1 ∨ r.interfaces ≠ [] ∧ getInterface r ifnum = none
          · rw [if_pos hearly]
            refine .refused r (.refl r) ?_
            rintro i pi pp args' ⟨_, _, iface', ifnum', policy', r', h, _, hnum', hlen, hpi, _⟩
            cases hargs.symm.trans h
            cases hnum.symm.trans hnum'
            rcases hearly with hshort | ⟨_, hnone⟩
            · exact absurd hlen (Nat.not_le.mpr hshort)
            · cases hnone.symm.trans hpi
          rw [if_neg hearly]
          cases hpp : getpolicy env r policy with
          | none =>
            simp only
            refine .other _ (fun h => by cases h) (fun i h => by cases h) ?_
            rintro i pi pp args' ⟨_, _, iface', ifnum', policy', r', h, _, _, _, _, hpp'⟩
            cases hargs.symm.trans h
            cases hpp.symm.trans hpp'
          | some found =>
            obtain ⟨pp, r'⟩ := found
            have hsame := getpolicy_kept hpp
            cases pp with
            | none =>
              simp only
              refine .refused r' ⟨by rw [hsame.1], hsame.2.1, hsame.2.2⟩ ?_
              rintro i pi pp args' ⟨_, _, iface', ifnum', policy', r'', h, _, _, _, _, hpp'⟩
              cases hargs.symm.trans h
              cases hpp.symm.trans hpp'
            | some pp =>
              cases hpi : getInterface r ifnum with
              | none =>
                simp only
                refine .other _ (fun h => by cases h) (fun i h => by cases h) ?_
                rintro i pi pp args' ⟨_, _, iface', ifnum', policy', r'', h, _, hnum', _, hpi', _⟩
                cases hargs.symm.trans h
                cases hnum.symm.trans hnum'
                cases hpi.symm.trans hpi'
              | some place =>
                obtain ⟨i, pi⟩ := place
                have hlen : 1 ≤ policy.length := Nat.not_lt.mp (fun h => hearly (Or.inl h))
                exact .applies r' i pi pp args
                  ⟨hlong, hset, iface, ifnum, policy, r', hargs, hvd, hnum, hlen, hpi, hpp⟩ hsame

lemma trafficControl_cases (env : TcEnv) (r : Router) (s : List Char) :
    TcCase env r s (trafficControl env r s) := by
  unfold trafficControl
  by_cases hls : s.dropLast.length = 2 ∧ ['l', 's'].isPrefixOf s.dropLast = true
  · simp only [if_pos hls]
    refine .other _ (fun h => by cases h) (fun i h => by cases h) ?_
    intro i pi pp args h
    have hlong := h.long
    omega
  simp only [if_neg hls]
  by_cases hset : 4 < s.dropLast.length ∧ ['s', 'e', 't'].isPrefixOf s.dropLast = true
  · rw [if_pos hset]
    exact tcSet_cases env r s hset.1 hset.2
  rw [if_neg hset]
  exact .refused r (.refl r) (fun i pi pp args h => hset ⟨h.long, h.set⟩)

lemma tc_error_iff (env : TcEnv) (r : Router) (s : List Char) :
    ((trafficControl env r s).reply = .usage → Kept r (trafficControl env r s).router) ↔
    ¬PolicyRefused env r s := by
  have hcase := trafficControl_cases env r s
  generalize trafficControl env r s = a at hcase ⊢
  cases hcase with
  | other _ husage _ hno =>
    exact iff_of_true (fun h => absurd h husage) (fun ⟨i, pi, pp, args, _, h, _⟩ => hno i pi pp args h)
  | refused r' hkept hno =>
    exact iff_of_true (fun _ => hkept) (fun ⟨i, pi, pp, args, _, h, _⟩ => hno i pi pp args h)
  | applies r' i pi pp args happ hsame =>
    have hno : ∀ {res}, policyInit env pp (setInterfacePolicy pi pp) args = res →
        (∀ vif, res ≠ .failed vif) → ¬PolicyRefused env r s := by
      rintro res hres hne ⟨i', pi', pp', args', vif, happ', hfail, _⟩
      obtain ⟨_, hpi, hpp, hargs⟩ := happ.unique happ'
      rw [← hpi, ← hpp, ← hargs, hres] at hfail
      exact hne vif hfail
    unfold tcApply
    cases hinit : policyInit env pp (setInterfacePolicy pi pp) args with
    | ok vif => exact iff_of_true (fun h => by cases h) (hno hinit (fun _ h => by cases h))
    | fault => exact iff_of_true (fun h => by cases h) (hno hinit (fun _ h => by cases h))
    | failed vif =>
      obtain ⟨iface, ifnum, policy, r₁, _, _, _, _, hpi, _⟩ := happ.reaches
      have hkept : Kept r { r' with interfaces := r'.interfaces.set i vif } ↔ vif.settings = pi.settings :=
        kept_set_iff vif (getInterface_get hpi) (congrArg (fun l => l.set i vif) hsame.1) hsame.2.1 hsame.2.2
      have hset : vif.settings = (setInterfacePolicy pi pp).settings := policyInit_failed hinit
      have hsettings : vif.settings = pi.settings ↔ pi.policy = pp := by
        rw [hset]
        simp only [Iface.settings, setInterfacePolicy, Prod.mk.injEq, true_and, and_true]
        exact eq_comm
      rw [hsettings] at hkept
      constructor
      · rintro h ⟨i', pi', pp', args', vif', happ', _, hne⟩
        obtain ⟨_, hpi', hpp', _⟩ := happ.unique happ'
        apply hne
        rw [← hpi', ← hpp']
        exact hkept.mp (h rfl)
      intro h _
      apply hkept.mpr
      by_contra hne
      exact h ⟨i, pi, pp, args, vif, happ, hinit, hne⟩

lemma counted_iff (h : Initialised pp vif vif') (hpp : vif.policy = pp) : Counted vif' ↔
    ¬(pp = .pfifo ∧ vif.qOut ≠ [] ∨ (pp = .bfifo ∨ pp = .tbf) ∧ (vif.qOut.map Buff.len).sum ≠ 0) := by
  have hpolicy := h.policy.trans hpp
  unfold Counted
  rw [hpolicy, h.queue]
  cases pp with
  | ufifo => simp
  | pfifo =>
    rw [h.counter (by decide)]
    simp [eq_comm]
  | bfifo =>
    rw [h.counter (by decide)]
    simp [eq_comm]
  | tbf =>
    rw [h.counter (by decide)]
    simp [eq_comm]

lemma tc_success_iff (env : TcEnv) (r : Router) (s : List Char) :
    (∀ i, (trafficControl env r s).reply = .policySet i →
      ∀ vif, (trafficControl env r s).router.interfaces[i]? = some vif → vif.qOut ≠ [] →
        Drains vif ∧ Counted vif) ↔ ¬PolicyMiscounts env r s := by
  have hcase := trafficControl_cases env r s
  generalize trafficControl env r s = a at hcase ⊢
  cases hcase with
  | other _ _ hset hno =>
    exact iff_of_true (fun i h => absurd h (hset i)) (fun ⟨i, pi, pp, args, _, h, _⟩ => hno i pi pp args h)
  | refused r' _ hno =>
    exact iff_of_true (fun i h => by cases h) (fun ⟨i, pi, pp, args, _, h, _⟩ => hno i pi pp args h)
  | applies r' i pi pp args happ hsame =>
    have hno : ∀ {res}, policyInit env pp (setInterfacePolicy pi pp) args = res →
        (∀ vif, res ≠ .ok vif) → ¬PolicyMiscounts env r s := by
      rintro res hres hne ⟨i', pi', pp', args', vif, happ', hok, _⟩
      obtain ⟨_, hpi, hpp, hargs⟩ := happ.unique happ'
      rw [← hpi, ← hpp, ← hargs, hres] at hok
      exact hne vif hok
    unfold tcApply
    cases hinit : policyInit env pp (setInterfacePolicy pi pp) args with
    | failed vif => exact iff_of_true (fun i h => by cases h) (hno hinit (fun _ h => by cases h))
    | fault => exact iff_of_true (fun i h => by cases h) (hno hinit (fun _ h => by cases h))
    | ok vif =>
      obtain ⟨iface, ifnum, policy, r₁, _, _, _, _, hpi, _⟩ := happ.reaches
      have hlt := (List.getElem?_eq_some_iff.mp (getInterface_get hpi)).1
      have hget : (r'.interfaces.set i vif)[i]? = some vif := by
        rw [hsame.1]
        exact getElem?_set_self hlt
      have hinitialised := policyInit_ok hinit
      have hcounted := counted_iff hinitialised rfl
      have hqueue : vif.qOut = pi.qOut := hinitialised.queue
      have hdrains : Drains vif := drains_of_ready (fun htbf => hinitialised.ready (by
        rw [← htbf, hinitialised.policy]
        rfl))
      constructor
      · rintro h ⟨i', pi', pp', args', vif', happ', _, hwait⟩
        obtain ⟨_, hpi', hpp', _⟩ := happ.unique happ'
        rw [← hpi', ← hpp'] at hwait
        have hne : vif.qOut ≠ [] := by
          intro hempty
          rw [hqueue] at hempty
          rw [hempty] at hwait
          rcases hwait with ⟨_, hwait⟩ | ⟨_, hwait⟩
          · exact hwait rfl
          · exact hwait rfl
        exact hcounted.mp (h i rfl vif hget hne).2 hwait
      intro h j hj vif' hget' _
      cases hj
      cases hget.symm.trans hget'
      refine ⟨hdrains, hcounted.mpr ?_⟩
      intro hwait
      exact h ⟨i, pi, pp, args, vif, happ, hinit, hwait⟩

/-- The commands keep what the user expects exactly when they are none of the four kinds. -/
theorem managed_right_iff (env : TcEnv) (r : Router) (s : List Char) (c : Command) :
    ManagedRight env r s c ↔ ManageOk env r s c := by
  have hsplit : ManagedRight env r s c ↔
      ((handle env r s c).reply = .usage → Kept r (handle env r s c).router) ∧
      (∀ i, (handle env r s c).reply = .policySet i → ∀ vif,
        (handle env r s c).router.interfaces[i]? = some vif → vif.qOut ≠ [] → Drains vif ∧ Counted vif) :=
    ⟨fun h => ⟨h.error, h.success⟩, fun h => ⟨h.1, h.2⟩⟩
  rw [hsplit]
  cases c with
  | ifconfig =>
    have hnever : ∀ i, (ifconfig r s).reply ≠ .policySet i := by
      intro i
      unfold ifconfig ifconfigSet
      dsimp only
      repeat' split
      all_goals exact fun h => by cases h
    exact ⟨fun h => (ifconfig_error_iff r s).mp h.1,
      fun h => ⟨(ifconfig_error_iff r s).mpr h, fun i hi => absurd hi (hnever i)⟩⟩
  | route =>
    have hnever : ∀ i, (route r s).reply ≠ .policySet i := by
      intro i
      unfold route routeNet
      dsimp only
      repeat' split
      all_goals exact fun h => by cases h
    exact ⟨fun h => (route_error_iff r s).mp h.1,
      fun h => ⟨(route_error_iff r s).mpr h, fun i hi => absurd hi (hnever i)⟩⟩
  | tc =>
    exact and_congr (tc_error_iff env r s) (tc_success_iff env r s)

lemma oneNet_mac : #[(0 : UInt8), 0xAA, 10, 0, 0, 1].size = 6 := rfl

def oneNet : Router :=
  { interfaces := [{ id := 0, mac := ⟨#[0, 0xAA, 10, 0, 0, 1], oneNet_mac⟩, ipaddr := 0x0A000001, nm := 0xFFFFFF00, qOut := []
                     policyName := .ufifo, policy := .ufifo, tcPriv := fun _ => 0 }]
    routeTable := [], routeWild := false, arpTable := [], arpWild := false, garbage := fun _ => false
    modlist := [.ufifo], modloop := false, defaultGw := 0, queued := [], sent := [] }

def noModules : TcEnv := { dlopen := fun _ => none, now := ⟨0, 0⟩, garbage := fun _ => 0 }

def badNetmask : List Char :=
  ['v', 'd', '0', ' ', '1', '0', '.', '0', '.', '0', '.', '9', ' ', 'n', 'e', 't', 'm', 'a', 's', 'k', ' ', '2', '4', '\n']

/-- `ifconfig vd0 10.0.0.9 netmask 24` ends with the usage message and leaves the interface at 10.0.0.9. -/
theorem failed_ifconfig_renumbers : ¬ManagedRight noModules oneNet badNetmask .ifconfig := by
  intro h
  have hkept := h.error (by decide +kernel)
  have haddr := congrArg (fun l => l.map Prod.fst) hkept.ifaces
  have hnew : ((ifconfig oneNet badNetmask).router.interfaces.map Iface.settings).map Prod.fst = [0x0A000009] := by
    decide +kernel
  exact absurd (hnew.symm.trans haddr) (by decide)

end Vde.L3
