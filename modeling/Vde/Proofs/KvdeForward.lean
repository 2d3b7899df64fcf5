import Vde.KvdeSwitch
import Vde.Proofs.IpnPorts
import Vde.Proofs.KernelMacTable

/-!
# What the kernel switch forwards

Calls on sockets and devices, in any order, but for those that change the number of ports; messages of
connected nodes, and the timers of the tables. A message goes to the right nodes unless its destination was
seen at the port that it comes from: this message is sent back, where the switch in user space drops it.
-/

namespace Vde.Ipn

open Function Option

/-! ## Runs -/

/-- A call on a socket or on a device, with the outcome of `kzalloc` if it makes a network; a message that a node
sends; or the timer of a network. -/
inductive KvdeEvent where
  | call (e : IpnEvent) (alloc : Bool)
  | frame (n : Nat) (data : Mem) (len t : Nat) (alloc : Option Nat)
  | timer (k t : Nat)

/-- The port for which a call reports to the protocol that its node is gone. The node of a device that cannot be
opened has no port yet. -/
def IpnEvent.delport (s : State) : IpnEvent → Option (Nat × Int)
  | .release n lock netLock => (s.nodes n).bind fun node => terminateDelport node lock netLock
  | .ioctl n (.net req) => (s.nodes n).bind fun node => netdevDelport s node req
  | _ => none

def kvdeStep (hz : BitVec 64) (s : KvdeState) : KvdeEvent → KvdeState
  | .call e alloc => s.afterCall hz alloc (ipnStep s.ipn e) (e.delport s.ipn)
  | .frame n data len t alloc => s.afterFrame n data len t alloc
  | .timer k t => s.afterTimer k t

def IpnEvent.Resizes : IpnEvent → Prop
  | .setsockopt _ _ optname _ _ _ _ _ => optname = IPN_SO_CHANGE_NUMNODES
  | _ => False

/-- Messages come from connected nodes, the clock does not go back, memory comes at free addresses, and only a
timer that is pending runs. -/
def KvdeEvent.Legal (s : KvdeState) : KvdeEvent → Prop
  | .call e _ => s.ipn.fault = false ∧ e.Legal s.ipn ∧ ¬e.Resizes
  | .frame n _ _ t alloc => s.now ≤ t ∧
      ∃ node k, s.ipn.nodes n = some node ∧ node.connected = true ∧ node.ipn = some k ∧
        ∀ a h, alloc = some a → s.hash k = some h → h.elems a = none
  | .timer k t => s.now ≤ t ∧ ∃ h, s.hash k = some h ∧ h.hashtimer.isSome

def kvdeMachine (hz : BitVec 64) : Machine KvdeState KvdeEvent where
  enabled s e := e.Legal s
  step := kvdeStep hz

def kvdeInit : KvdeState := { ipn := ipnInit, hash := fun _ => none, now := 0 }

/-! ## The claims -/

def IpnHash.Learned (h : IpnHash) (key : HashKey) (port : Int) : Prop :=
  ∃ a e, h.elems a = some e ∧ e.key = key ∧ e.port = port

def IpnHash.CanLearn (h : IpnHash) (key : HashKey) (alloc : Option Nat) : Prop :=
  (∃ port, h.Learned key port) ∨ 0 < h.timeout ∧ alloc ≠ none

def NoEmptySlot (s : KvdeState) : Prop :=
  ∀ k h w, s.hash k = some h → s.ipn.nets k = some w → ∀ key port, h.Learned key port →
    ∃ p : Nat, port = p ∧ w.connport p ≠ none

/-- Whether a call or a message uses the table of the network `k`: a port of it goes, or the network itself, or a
frame is in it. -/
def KvdeEvent.Uses (s : KvdeState) (k : Nat) : KvdeEvent → Prop
  | .call e _ => (∃ port, e.delport s.ipn = some (k, port)) ∨ (ipnStep s.ipn e).nets k = none
  | .frame n _ len _ _ => 14 ≤ len ∧ ∃ node, s.ipn.nodes n = some node ∧ node.ipn = some k
  | .timer _ _ => False

/-- No table is used for which `ipn_hash_new` had no memory. -/
def TablesThere (s : KvdeState) (e : KvdeEvent) : Prop :=
  ∀ k w, e.Uses s k → s.ipn.nets k = some w → w.protocol + 1 = IPN_VDESWITCH → s.hash k ≠ none

/-- A message goes to all other connected nodes if its destination is multicast or not in the table, when that has
learned the sender; to nobody, if the destination was seen at the port of the sender; and else to the
node of the port at which it was seen. -/
def FrameRight (s : KvdeState) : KvdeEvent → Prop
  | .frame n data len t alloc => 14 ≤ len → ∀ node k w h, s.ipn.nodes n = some node → node.ipn = some k →
      s.ipn.nets k = some w → s.hash k = some h →
      let (dests, h') := ipnKvdeSwitchHandlemsg (BitVec.ofNat 64 t) alloc n node.portno w data len h
      (isBroadcast data 0 = true ∨ (¬∃ port, h'.Learned (ethKey data 0) port) → dests = w.connectqueue.filter (· != n)) ∧
      ∀ port, isBroadcast data 0 = false → h'.Learned (ethKey data 0) port →
        if port = node.portno then dests = [] else ∃ m, w.connport port.toNat = some m ∧ dests = [m]
  | _ => True

/-- The destination of a message is not its source and was not seen at the port of the sender; and the slot of the
sender is not empty when its port is learned. -/
def FrameOk (s : KvdeState) : KvdeEvent → Prop
  | .frame n data len _ alloc => 14 ≤ len → ∀ node k w h, s.ipn.nodes n = some node → node.ipn = some k →
      s.ipn.nets k = some w → s.hash k = some h →
      (isBroadcast data 0 = false → if ethKey data 0 = ethKey data 6 then ¬h.CanLearn (ethKey data 6) alloc
        else ¬h.Learned (ethKey data 0) node.portno) ∧
      (isBroadcast data 6 = false → h.CanLearn (ethKey data 6) alloc →
        ∃ p : Nat, node.portno = p ∧ w.connport p ≠ none)
  | _ => True

/-! ## The slots of the networks -/

def SlotsStay (gone : Option (Nat × Int)) (s s' : State) : Prop :=
  ∀ k w w', s.nets k = some w → s'.nets k = some w' → ∀ p, w.connport p ≠ none →
    w'.connport p ≠ none ∨ gone = some (k, (p : Int))

variable {lock netLock : Bool}

section

variable {s s' : State} {n k : Nat} {node : Node} {w w' : Network} {gone : Option (Nat × Int)}

lemma slotsStay_nets (h : s'.nets = s.nets) : SlotsStay gone s s' := by
  intro k w w' hw hw' p hp
  rw [h, hw] at hw'
  rw [← some.inj hw']
  exact .inl hp

lemma slotsStay_setNet (hw : s.nets k = some w) (hnets : s'.nets = update s.nets k (some w'))
    (h : ∀ p, w.connport p ≠ none → w'.connport p ≠ none ∨ gone = some (k, (p : Int))) : SlotsStay gone s s' := by
  intro j v v' hv hv' p hp
  rw [hnets] at hv'
  by_cases hj : j = k
  · subst hj
    rw [update_self] at hv'
    rw [← some.inj hv']
    rw [hw] at hv
    rw [← some.inj hv] at hp
    exact h p hp
  rw [update_of_ne hj, hv] at hv'
  rw [← some.inj hv']
  exact .inl hp

lemma slotsStay_freeNet (hnets : s'.nets = update s.nets k none) : SlotsStay gone s s' := by
  intro j v v' hv hv' p hp
  rw [hnets] at hv'
  by_cases hj : j = k
  · rw [hj, update_self] at hv'
    cases hv'
  rw [update_of_ne hj, hv] at hv'
  rw [← some.inj hv']
  exact .inl hp

lemma slotsStay_newNet (hw : s.nets k = none) (hnets : s'.nets = update s.nets k (some w')) :
    SlotsStay gone s s' := by
  intro j v v' hv hv' p hp
  rw [hnets] at hv'
  by_cases hj : j = k
  · rw [hj, hw] at hv
    cases hv
  rw [update_of_ne hj, hv] at hv'
  rw [← some.inj hv']
  exact .inl hp

lemma store_slots {p : Int} {v : Option Nat} (hstore : w.store p v = some w') {q : Nat} (hq : w.connport q ≠ none) :
    w'.connport q ≠ none ∨ v = none ∧ p = q := by
  unfold Network.store at hstore
  split_ifs at hstore with hp
  rw [← some.inj hstore]
  by_cases hqp : q = p.toNat
  · cases v with
    | none => exact .inr ⟨rfl, by omega⟩
    | some m => simp [hqp]
  · simp [hqp, hq]

lemma store_some_slots {p : Int} {m : Nat} (hstore : w.store p (some m) = some w') {q : Nat}
    (hq : w.connport q ≠ none) : w'.connport q ≠ none := by
  cases store_slots hstore hq with
  | inl hstays => exact hstays
  | inr hlost => cases hlost.1

lemma SlotsStay.congr {s₀ s₁ : State} (h : SlotsStay gone s s') (hfrom : s₀.nets = s.nets)
    (hto : s₁.nets = s'.nets) : SlotsStay gone s₀ s₁ := by
  intro k w w' hw hw'
  rw [hfrom] at hw
  rw [hto] at hw'
  exact h k w w' hw hw'

lemma SlotsStay.mono (h : SlotsStay none s s') : SlotsStay gone s s' := by
  intro k w w' hw hw' p hp
  cases h k w w' hw hw' p hp with
  | inl hstays => exact .inl hstays
  | inr hnone => cases hnone

lemma slotsStay_net {f : Network → Int × State} (h : ∀ w, s.nets k = some w → SlotsStay gone s (f w).2) :
    SlotsStay gone s (s.net k f).2 := by
  unfold State.net
  cases hw : s.nets k with
  | none => exact slotsStay_nets rfl
  | some w => exact h w hw

lemma terminate_slots (netLock : Bool) :
    SlotsStay (terminateDelport node true netLock) s (ipnTerminateNode s n node netLock).2 := by
  unfold ipnTerminateNode
  cases hipn : node.ipn with
  | none => exact slotsStay_nets rfl
  | some k =>
    apply slotsStay_net
    intro w hw
    cases netLock with
    | false => exact slotsStay_nets rfl
    | true =>
      simp only [Bool.not_true, Bool.false_eq_true, if_false]
      have hslots : ∀ w', (if 0 ≤ node.portno then w.store node.portno none else some w) = some w' →
          ∀ p, w.connport p ≠ none →
            w'.connport p ≠ none ∨ terminateDelport node true true = some (k, (p : Int)) := by
        intro w' hstore p hp
        by_cases hpos : 0 ≤ node.portno
        · rw [if_pos hpos] at hstore
          cases store_slots hstore hp with
          | inl hstays => exact .inl hstays
          | inr hlost =>
            right
            simp [terminateDelport, hipn, hlost.2]
        rw [if_neg hpos] at hstore
        rw [← some.inj hstore]
        exact .inl hp
      cases hstore : (if 0 ≤ node.portno then w.store node.portno none else some w) with
      | none => exact slotsStay_nets rfl
      | some w' =>
        dsimp only
        split_ifs
        · exact slotsStay_freeNet rfl
        · exact slotsStay_setNet hw rfl (hslots w' hstore)

lemma nodeRelease_slots (lock netLock : Bool) :
    SlotsStay (terminateDelport node lock netLock) s (ipnNodeRelease s n node lock netLock).2 := by
  unfold ipnNodeRelease
  cases lock with
  | false => exact slotsStay_nets rfl
  | true =>
    have h := @terminate_slots s n node netLock
    simp only [Bool.not_true, Bool.false_eq_true, if_false]
    split_ifs
    · exact h.congr rfl rfl
    · exact h

lemma release_slots (lock netLock : Bool) :
    SlotsStay (terminateDelport node lock netLock) s (ipnRelease s n node lock netLock).2 := by
  unfold ipnRelease
  have h := @nodeRelease_slots s n node lock netLock
  dsimp only
  split_ifs
  · exact h
  · exact h.congr rfl rfl

lemma nodeBind_slots {ipnn : Option Nat} : SlotsStay gone s (ipnNodeBind s n node ipnn).2 := by
  unfold ipnNodeBind
  cases ipnn with
  | none => exact slotsStay_nets rfl
  | some k =>
    dsimp only
    split_ifs
    · exact slotsStay_nets rfl
    apply slotsStay_net
    intro w hw
    exact slotsStay_setNet hw rfl (fun p hp => .inl hp)

lemma bind_slots {registered : Bool} {path : BindPath} (hfree : ∀ k, path = .created k → s.nets k = none) :
    SlotsStay gone s (ipnBind s n node lock registered path).2 := by
  rcases ipnBind_cases s n node lock registered path with ⟨heq, -⟩ | ⟨-, -, k, s', heq, hpath⟩
  · rw [heq]
    exact slotsStay_nets rfl
  rw [heq]
  rcases hpath with ⟨hpath, rfl⟩ | ⟨-, rfl, -⟩
  · have hnone := hfree k hpath
    unfold ipnNodeBind
    dsimp only
    split_ifs
    · exact slotsStay_newNet hnone rfl
    simp only [State.net, State.setNet_nets, update_self]
    exact slotsStay_newNet hnone (update_idem ..)
  · exact nodeBind_slots

lemma connectAt_slots {previousipnn : Option Nat} :
    SlotsStay gone s (ipnConnectAt s n node previousipnn k netLock).2 := by
  unfold ipnConnectAt
  apply slotsStay_net
  intro w hw
  cases netLock with
  | false => exact slotsStay_nets rfl
  | true =>
    simp only [Bool.not_true, Bool.false_eq_true, if_false]
    split
    · cases hstore : w.store (ipnNewport w) (some n) with
      | none => exact slotsStay_nets rfl
      | some w' =>
        apply slotsStay_setNet hw rfl
        intro p hp
        left
        have hslots := store_some_slots hstore hp
        dsimp only
        split
        · exact hslots
        · exact hslots
    · exact slotsStay_nets rfl

lemma connect_slots {path : ConnectPath} : SlotsStay gone s (ipnConnect s n node lock netLock path).2 := by
  unfold ipnConnect
  split
  · exact slotsStay_nets rfl
  split
  · exact slotsStay_nets rfl
  cases node.ipn with
  | some k => exact connectAt_slots
  | none =>
    dsimp only
    generalize ipnConnectPath s node path = r
    obtain ⟨result, node'⟩ := r
    cases result with
    | error err => exact slotsStay_nets rfl
    | ok k => exact connectAt_slots

lemma giveUp_slots {err : Int} (hport : node.portno < 0) :
    SlotsStay gone s (ipnNodeGiveUp s n node lock netLock err).2 := by
  unfold ipnNodeGiveUp
  have h := @nodeRelease_slots (s.setNode n { node with closed := true }) n { node with closed := true } lock netLock
  have hnone : terminateDelport { node with closed := true } lock netLock = none := by
    unfold terminateDelport
    dsimp only
    cases node.ipn with
    | none => rfl
    | some k =>
      apply if_neg
      rintro ⟨_, _, hpos⟩
      omega
  rw [hnone] at h
  exact h.mono.congr rfl rfl

lemma nodeCreate_portno : ipnNodeCreate.portno < 0 := by decide

lemma nodeCreateConnect_slots {locks : OpenLocks} : SlotsStay gone s (ipnNodeCreateConnect s n k locks).2 := by
  unfold ipnNodeCreateConnect
  dsimp only
  split
  · exact giveUp_slots nodeCreate_portno
  apply slotsStay_net
  intro w hw
  split
  · exact giveUp_slots nodeCreate_portno
  split
  · cases hstore : w.store (ipnNewport w) (some n) with
    | none => exact slotsStay_nets rfl
    | some w' =>
      apply slotsStay_setNet hw rfl
      intro p hp
      left
      have hslots := store_some_slots hstore hp
      dsimp only
      split
      · exact hslots
      · exact hslots
  · exact giveUp_slots nodeCreate_portno

lemma chrdevOpen_slots {modeRead modeWrite alloc stale : Bool} {mayRead mayWrite : Int} {locks : OpenLocks} :
    SlotsStay gone s (ipnChrdevOpen s n k modeRead modeWrite mayRead mayWrite alloc locks stale).2 := by
  have h := @nodeCreateConnect_slots s n k gone locks
  unfold ipnChrdevOpen
  dsimp only
  split
  · exact slotsStay_nets rfl
  split
  · exact slotsStay_nets rfl
  generalize ipnNodeCreateConnect s n k locks = r at h
  obtain ⟨err, s₁⟩ := r
  dsimp only at h ⊢
  split
  · cases s₁.nodes n with
    | none => exact h.congr rfl rfl
    | some node => exact h.congr rfl rfl
  split
  · exact h.congr rfl rfl
  · exact h

lemma ioctl_slots {req : Ioctl} : SlotsStay gone s (ipnIoctl s n node req).2 := by
  have hcase := ipnIoctl_case s n node req
  generalize (ipnIoctl s n node req).2 = s' at hcase
  cases hcase with
  | same => exact slotsStay_nets rfl
  | wild => exact slotsStay_nets rfl
  | undone => exact slotsStay_nets rfl
  | joined k w _ hw => exact slotsStay_setNet hw rfl (fun p hp => .inl hp)
  | chrdev k w _ _ hw => exact slotsStay_setNet hw rfl (fun p hp => .inl hp)
  | refused k w _ hw => exact slotsStay_setNet hw rfl (fun p hp => .inl hp)
  | attached k w p _ _ _ hw =>
    refine slotsStay_setNet hw rfl (fun q hq => .inl ?_)
    by_cases hqp : q = p
    · simp [hqp]
    · simpa [hqp] using hq

lemma shutdown_slots {mode : Int} : SlotsStay gone s (ipnShutdown s n node mode netLock).2 := by
  unfold ipnShutdown
  dsimp only
  cases node.ipn with
  | none => exact slotsStay_nets rfl
  | some k =>
    apply slotsStay_net
    intro w _
    split
    · exact slotsStay_nets rfl
    · exact slotsStay_nets rfl

lemma sockoptVal_nets {optname : BitVec 32} {val : Int} {alloc : Bool}
    (hresize : optname ≠ IPN_SO_CHANGE_NUMNODES) : (ipnSockoptVal s n node optname val netLock alloc).2.nets = s.nets := by
  rcases ipnSockoptVal_cases s n node optname val netLock alloc with
    heq | ⟨pbp, sh, -, heq⟩ | ⟨-, heq⟩ | ⟨hsize, -⟩
  · rw [heq]
  · rw [heq]
    rfl
  · rw [heq]
    rfl
  · exact absurd hsize hresize

lemma setsockopt_slots {level val : Int} {optname : BitVec 32} {optlen : Nat} {pbpAlloc alloc : Bool}
    (hresize : optname ≠ IPN_SO_CHANGE_NUMNODES) :
    SlotsStay gone s (ipnSetsockopt s n node level optname optlen val netLock pbpAlloc alloc).2 := by
  rcases ipnSetsockopt_cases s n node level optname optlen val netLock pbpAlloc alloc with
    heq | ⟨k, -, -, heq⟩ | ⟨-, pbp, heq⟩
  · rw [heq]
    exact slotsStay_nets rfl
  · rw [heq]
    exact slotsStay_nets rfl
  rw [heq]
  exact slotsStay_nets (sockoptVal_nets hresize)

lemma ipnStep_slots {e : IpnEvent} (hlegal : e.Legal s) (hresize : ¬e.Resizes) :
    SlotsStay (e.delport s) s (ipnStep s e) := by
  have hon : ∀ n (f : Node → Int × State), (∀ node, s.nodes n = some node → SlotsStay (e.delport s) s (f node).2) →
      SlotsStay (e.delport s) s (s.onNode n f) := by
    intro n f hf
    unfold State.onNode
    cases hn : s.nodes n with
    | none => exact slotsStay_nets rfl
    | some node => exact hf node hn
  cases e with
  | socket n protocol registered =>
    unfold ipnStep ipnCreate
    dsimp only
    generalize (if 0 < protocol then protocol - 1 else IPN_BROADCAST - 1) = protocol
    split
    · exact slotsStay_nets rfl
    · exact slotsStay_nets rfl
  | bind n lock registered path =>
    apply hon
    intro node _
    apply bind_slots
    intro k hpath
    have hnew := hlegal.2
    rw [hpath] at hnew
    exact hnew
  | connect n lock netLock path => exact hon n _ fun _ _ => connect_slots
  | ioctl n req => exact hon n _ fun _ _ => ioctl_slots
  | chrdevOpen n k modeRead modeWrite mayRead mayWrite alloc locks stale => exact chrdevOpen_slots
  | setsockopt n level optname optlen val netLock pbpAlloc alloc =>
    exact hon n _ fun _ _ => setsockopt_slots hresize
  | shutdown n mode netLock => exact hon n _ fun _ _ => shutdown_slots
  | release n lock netLock =>
    apply hon
    intro node hn
    simp only [IpnEvent.delport, hn, bind_some]
    exact release_slots lock netLock

end

/-! ## The tables -/

/-- The table is in order, and no element of it expires later than a new one would. -/
def TableOk (h : IpnHash) (now : Nat) : Prop :=
  ∃ m, HashRep h m ∧ ∀ key v, m key = some v → v.2 ≤ now + h.timeout.toNat

section

variable {h : IpnHash} {m : KernelMap} {now t : Nat}

lemma HashRep.learned_iff (hr : HashRep h m) (key : HashKey) (port : Int) :
    h.Learned key port ↔ ∃ expiry, m key = some (port, expiry) := by
  constructor
  · rintro ⟨a, e, he, hkey, hport⟩
    obtain ⟨expiry, hstored, _⟩ := hr.stored a e he
    rw [hkey, hport] at hstored
    exact ⟨expiry, hstored⟩
  rintro ⟨expiry, hm⟩
  obtain ⟨a, e, he, hkey⟩ := hr.covered key (by rw [hm]; exact some_ne_none _)
  obtain ⟨expiry', hstored, _⟩ := hr.stored a e he
  rw [hkey, hm] at hstored
  exact ⟨a, e, he, hkey, (Prod.mk.inj (some.inj hstored)).1.symm⟩

lemma HashRep.canLearn_iff (hr : HashRep h m) (key : HashKey) (alloc : Option Nat) :
    h.CanLearn key alloc ↔ h.Learns m key alloc := by
  apply or_congr_left
  constructor
  · rintro ⟨port, hport⟩
    obtain ⟨expiry, hm⟩ := (hr.learned_iff key port).mp hport
    rw [hm]
    exact some_ne_none _
  intro hm
  obtain ⟨v, hv⟩ := ne_none_iff_exists'.mp hm
  exact ⟨v.1, (hr.learned_iff key v.1).mpr ⟨v.2, hv⟩⟩

lemma TableOk.later (hok : TableOk h now) (hle : now ≤ t) : TableOk h t := by
  obtain ⟨m, hr, hlatest⟩ := hok
  refine ⟨m, hr, fun key v hv => ?_⟩
  have := hlatest key v hv
  omega

lemma TableOk.find (hok : TableOk h now) (key : HashKey) :
    (∃ port, h.Learned key port ∧ (∀ q, h.Learned key q → q = port) ∧ ipnHashFind key h = port) ∨
    (¬∃ port, h.Learned key port) ∧ ipnHashFind key h = -1 := by
  obtain ⟨m, hr, _⟩ := hok
  rw [hr.find key]
  simp only [hr.learned_iff]
  cases hm : m key with
  | none =>
    right
    simp
  | some v =>
    left
    refine ⟨v.1, ⟨v.2, rfl⟩, ?_, rfl⟩
    rintro q ⟨expiry, hq⟩
    rw [some.inj hq]

lemma TableOk.flushPort (hok : TableOk h now) (port : Int) : TableOk (ipnHashFlushPort port h) now ∧
    ∀ key q, (ipnHashFlushPort port h).Learned key q → h.Learned key q ∧ q ≠ port := by
  obtain ⟨m, hr, hlatest⟩ := hok
  have hflush : HashRep (ipnHashFlushPort port h) (m.flushPort port) := by
    apply hr.flush
    · intro a e he
      obtain ⟨expiry, hstored, _⟩ := hr.stored a e he
      rw [KernelMap.flushPort, hstored]
      by_cases hport : e.port = port
      · simp [hport]
      · simp [hport]
    intro key hkey
    rw [KernelMap.flushPort, hkey]
    rfl
  have hold : ∀ key v, m.flushPort port key = some v → m key = some v ∧ v.1 ≠ port := by
    intro key v hv
    have hv : (m key).filter _ = some v := hv
    obtain ⟨hm, hne⟩ := filter_eq_some_iff.mp hv
    exact ⟨hm, by simpa using hne⟩
  constructor
  · refine ⟨_, hflush, fun key v hv => ?_⟩
    rw [ipnHashFlushPort, (flushLoop_fields _ _ h).1]
    exact hlatest key v (hold key v hv).1
  intro key q hq
  obtain ⟨expiry, hm⟩ := (hflush.learned_iff key q).mp hq
  obtain ⟨hm, hne⟩ := hold key _ hm
  exact ⟨(hr.learned_iff key q).mpr ⟨expiry, hm⟩, hne⟩

lemma timerLoop_restrict {j : BitVec 64} (hnodup : h.lrulist.Nodup) (hchain : ∀ i, (h.hashtable i).Nodup)
    (l : List Nat) (p : Nat → Bool) :
    ∃ q timer, timerLoop j l (h.restrict p) = { h.restrict q with hashtimer := timer } := by
  induction l generalizing p with
  | nil => exact ⟨p, h.hashtimer, rfl⟩
  | cons a rest ih =>
    rw [timerLoop]
    cases (h.restrict p).elems a with
    | none => exact ⟨p, h.hashtimer, rfl⟩
    | some e =>
      dsimp only
      split
      · rw [IpnHash.del_eq (hnodup.filter p) (fun i => (hchain i).filter p), IpnHash.restrict_restrict]
        exact ih _
      · exact ⟨p, _, rfl⟩

lemma TableOk.timer (hok : TableOk h now) (j : BitVec 64) : TableOk (ipnHashTimerExpired j h) now ∧
    ∀ key q, (ipnHashTimerExpired j h).Learned key q → h.Learned key q := by
  classical
  obtain ⟨m, hr, hlatest⟩ := hok
  obtain ⟨q, timer, hloop⟩ := @timerLoop_restrict { h with hashtimer := none } j hr.nodup hr.chainNodup h.lrulist
    (fun _ => true)
  rw [IpnHash.restrict_true] at hloop
  rw [ipnHashTimerExpired, hloop]
  constructor
  · let m' : KernelMap := fun key => if ∃ a e, h.elems a = some e ∧ e.key = key ∧ q a = true then m key else none
    have hrep : HashRep (h.restrict q) m' := by
      apply hr.restrict
      · intro a e he
        by_cases hq : q a = true
        · rw [if_pos hq]
          exact if_pos ⟨a, e, he, rfl, hq⟩
        rw [if_neg hq]
        apply if_neg
        rintro ⟨b, f, hf, hkey, hqb⟩
        rw [hr.unique b a f e hf he hkey] at hqb
        exact hq hqb
      intro key hkey
      simp only [m', hkey, ite_self]
    refine ⟨m', ⟨hrep.nodup, hrep.mem, hrep.chainNodup, hrep.chain, hrep.unique, hrep.stored, hrep.covered,
      hrep.sorted⟩, fun key v hv => ?_⟩
    have hv : (if ∃ a e, h.elems a = some e ∧ e.key = key ∧ q a = true then m key else none) = some v := hv
    split_ifs at hv
    exact hlatest key v hv
  rintro key port ⟨a, e, he, hkey, hport⟩
  exact ⟨a, e, (IpnHash.restrict_elems.mp he).2, hkey, hport⟩

lemma TableOk.learn (hok : TableOk h now) (hle : now ≤ t) {alloc : Option Nat}
    (halloc : ∀ a, alloc = some a → h.elems a = none) (portno : Int) (data : Mem) :
    let h' := ipnKvdeLearn (BitVec.ofNat 64 t) alloc portno data h
    TableOk h' t ∧ ∀ key q, h'.Learned key q ↔
      (isBroadcast data 6 = false ∧ h.CanLearn (ethKey data 6) alloc ∧ key = ethKey data 6) ∧ q = portno ∨
        ¬(isBroadcast data 6 = false ∧ h.CanLearn (ethKey data 6) alloc ∧ key = ethKey data 6) ∧ h.Learned key q := by
  obtain ⟨m, hr, hlatest⟩ := hok.later hle
  dsimp only
  unfold ipnKvdeLearn
  cases hcast : isBroadcast data 6 with
  | true =>
    refine ⟨⟨m, hr, hlatest⟩, fun key q => ?_⟩
    simp
  | false =>
    simp only [Bool.not_false, if_true, true_and]
    by_cases hcan : h.CanLearn (ethKey data 6) alloc
    · obtain ⟨hrep, htimeout, _⟩ := hr.add_learns (ethKey data 6) portno hlatest halloc ((hr.canLearn_iff _ _).mp hcan)
      refine ⟨⟨_, hrep, fun key v hv => ?_⟩, fun key q => ?_⟩
      · rw [htimeout]
        by_cases hk : key = ethKey data 6
        · rw [hk, KernelMap.add, update_self] at hv
          rw [← some.inj hv]
        rw [KernelMap.add, update_of_ne hk] at hv
        exact hlatest key v hv
      rw [hrep.learned_iff]
      by_cases hk : key = ethKey data 6
      · rw [hk, KernelMap.add, update_self]
        simp [hcan, eq_comm]
      rw [KernelMap.add, update_of_ne hk]
      simp [hk, hr.learned_iff]
    rw [hr.add_skips (fun hl => hcan ((hr.canLearn_iff _ _).mpr hl))]
    refine ⟨⟨m, hr, hlatest⟩, fun key q => ?_⟩
    simp [hcan]

end

/-! ## The steps -/

lemma ethKey_first {data : Mem} {i j : Nat} (h : ethKey data i = ethKey data j) : data i = data j := by
  have hword : ∀ x y : UInt8, (x.toBitVec.setWidth 16 ||| (y.toBitVec.setWidth 16) <<< 8).setWidth 8 = x.toBitVec := by
    intro x y
    apply BitVec.eq_of_getLsbD_eq
    intro b hb
    simp [hb]
  have hkey := congrArg (fun key => key.key0.setWidth 8) h
  simp only [ethKey, hword] at hkey
  exact UInt8.toBitVec_inj.mp hkey

structure KvdeInv (s : KvdeState) : Prop where
  net : ∀ k h, s.hash k = some h → s.ipn.nets k ≠ none
  table : ∀ k h, s.hash k = some h → TableOk h s.now
  slots : NoEmptySlot s

section

variable {s : KvdeState} {n len t k : Nat} {data : Mem} {alloc : Option Nat} {node : Node} {w : Network}
  {h : IpnHash}

lemma call_table (hinv : KvdeInv s) {hz : BitVec 64} {kalloc : Bool} {ipn : State} {gone : Option (Nat × Int)}
    (hh : (s.afterCall hz kalloc ipn gone).hash k = some h) : ipn.nets k ≠ none ∧ TableOk h s.now ∧ ∀ key q,
    h.Learned key q → ∃ h₀, s.hash k = some h₀ ∧ h₀.Learned key q ∧ gone ≠ some (k, q) := by
  have hold : ∀ h₁, (gone.elim s (fun r => s.onHash r.1 (ipnHashFlushPort r.2))).hash k = some h₁ →
        TableOk h₁ s.now ∧ ∀ key q, h₁.Learned key q →
          ∃ h₀, s.hash k = some h₀ ∧ h₀.Learned key q ∧ gone ≠ some (k, q) := by
    intro h₁ hh₁
    cases gone with
    | none => exact ⟨hinv.table k h₁ hh₁, fun key q hq => ⟨h₁, hh₁, hq, (some_ne_none _).symm⟩⟩
    | some r =>
      obtain ⟨j, port⟩ := r
      by_cases hj : k = j
      · subst hj
        have hh₁ : (s.onHash k (ipnHashFlushPort port)).hash k = some h₁ := hh₁
        rw [KvdeState.onHash_self, map_eq_some_iff] at hh₁
        obtain ⟨h₀, hh₀, heq⟩ := hh₁
        obtain ⟨hok, hflush⟩ := (hinv.table k h₀ hh₀).flushPort port
        rw [← heq]
        refine ⟨hok, fun key q hq => ⟨h₀, hh₀, (hflush key q hq).1, ?_⟩⟩
        intro hgone
        exact (hflush key q hq).2 (Prod.mk.inj (some.inj hgone)).2.symm
      have hh₁ : (s.onHash j (ipnHashFlushPort port)).hash k = some h₁ := hh₁
      rw [KvdeState.onHash_ne s hj] at hh₁
      refine ⟨hinv.table k h₁ hh₁, fun key q hq => ⟨h₁, hh₁, hq, ?_⟩⟩
      intro hgone
      exact hj (Prod.mk.inj (some.inj hgone)).1.symm
  have hh : KvdeState.netHash hz kalloc (s.ipn.nets k) (ipn.nets k) _ = some h := hh
  unfold KvdeState.netHash at hh
  cases hafter : ipn.nets k with
  | none =>
    rw [hafter] at hh
    cases s.ipn.nets k with
    | none => cases hh
    | some _ => cases hh
  | some w' =>
    refine ⟨some_ne_none _, ?_⟩
    rw [hafter] at hh
    cases hbefore : s.ipn.nets k with
    | some w =>
      rw [hbefore] at hh
      cases gone with
      | none => exact hold h hh
      | some r => exact hold h hh
    | none =>
      rw [hbefore] at hh
      dsimp only at hh
      split_ifs at hh
      obtain ⟨hrep, hempty⟩ := hashRep_new hh
      refine ⟨⟨_, hrep, nofun⟩, ?_⟩
      rintro key q ⟨a, e, he, _⟩
      rw [hempty a] at he
      cases he

lemma KvdeInv.call (hinv : KvdeInv s) {hz : BitVec 64} {e : IpnEvent} {kalloc : Bool} (hlegal : e.Legal s.ipn)
    (hresize : ¬e.Resizes) : KvdeInv (s.afterCall hz kalloc (ipnStep s.ipn e) (e.delport s.ipn)) where
  net k h hh := (call_table hinv hh).1
  table k h hh := by
    rw [KvdeState.afterCall_now]
    exact (call_table hinv hh).2.1
  slots := by
    intro k h w' hh hw' key port hport
    obtain ⟨_, _, hlearned⟩ := call_table hinv hh
    obtain ⟨h₀, hh₀, hport₀, hgone⟩ := hlearned key port hport
    obtain ⟨w, hw⟩ := ne_none_iff_exists'.mp (hinv.net k h₀ hh₀)
    obtain ⟨p, hp, hslot⟩ := hinv.slots k h₀ w hh₀ hw key port hport₀
    refine ⟨p, hp, ?_⟩
    cases ipnStep_slots hlegal hresize k w w' hw hw' p hslot with
    | inl hstays => exact hstays
    | inr hlost =>
      rw [hp] at hgone
      exact absurd hlost hgone

lemma KvdeInv.timer (hinv : KvdeInv s) (hle : s.now ≤ t) : KvdeInv (s.afterTimer k t) := by
  have htable : ∀ j h, (s.afterTimer k t).hash j = some h →
      ∃ h₀, s.hash j = some h₀ ∧ TableOk h t ∧ ∀ key q, h.Learned key q → h₀.Learned key q := by
    intro j h hh
    by_cases hj : j = k
    · subst hj
      have hh : (s.onHash j (ipnHashTimerExpired (BitVec.ofNat 64 t))).hash j = some h := hh
      rw [KvdeState.onHash_self, map_eq_some_iff] at hh
      obtain ⟨h₀, hh₀, heq⟩ := hh
      obtain ⟨hok, hlearned⟩ := ((hinv.table j h₀ hh₀).later hle).timer (BitVec.ofNat 64 t)
      rw [heq] at hok hlearned
      exact ⟨h₀, hh₀, hok, hlearned⟩
    have hh : (s.onHash k (ipnHashTimerExpired (BitVec.ofNat 64 t))).hash j = some h := hh
    rw [KvdeState.onHash_ne s hj] at hh
    exact ⟨h, hh, (hinv.table j h hh).later hle, fun _ _ hq => hq⟩
  constructor
  · intro j h hh
    obtain ⟨h₀, hh₀, _⟩ := htable j h hh
    exact hinv.net j h₀ hh₀
  · intro j h hh
    obtain ⟨_, _, hok, _⟩ := htable j h hh
    exact hok
  intro j h w hh hw key port hport
  obtain ⟨h₀, hh₀, _, hlearned⟩ := htable j h hh
  exact hinv.slots j h₀ w hh₀ hw key port (hlearned key port hport)

lemma frameOk_iff (hok : TableOk h s.now) (hle : s.now ≤ t) (halloc : ∀ a, alloc = some a → h.elems a = none)
    (hslots : ∀ key port, h.Learned key port → ∃ p : Nat, port = p ∧ w.connport p ≠ none) :
    let h' := ipnKvdeLearn (BitVec.ofNat 64 t) alloc node.portno data h
    ((isBroadcast data 0 = false → if ethKey data 0 = ethKey data 6 then ¬h.CanLearn (ethKey data 6) alloc
        else ¬h.Learned (ethKey data 0) node.portno) ↔
      (isBroadcast data 0 = false → ¬h'.Learned (ethKey data 0) node.portno)) ∧
    ((isBroadcast data 6 = false → h.CanLearn (ethKey data 6) alloc →
        ∃ p : Nat, node.portno = p ∧ w.connport p ≠ none) ↔
      ∀ key port, h'.Learned key port → ∃ p : Nat, port = p ∧ w.connport p ≠ none) := by
  obtain ⟨_, hlearned⟩ := hok.learn hle halloc node.portno data
  dsimp only
  constructor
  · apply imp_congr_right
    intro hdest
    rw [hlearned]
    by_cases hsame : ethKey data 0 = ethKey data 6
    · have hsrc : isBroadcast data 6 = false := by
        rw [← hdest, isBroadcast, isBroadcast, ethKey_first hsame]
      rw [if_pos hsame]
      by_cases hcan : h.CanLearn (ethKey data 6) alloc
      · simp [hsrc, hcan, hsame]
      have hnone : ¬h.Learned (ethKey data 0) node.portno := by
        intro hl
        rw [hsame] at hl
        exact hcan (.inl ⟨_, hl⟩)
      simp [hcan, hnone]
    rw [if_neg hsame]
    simp [hsame]
  constructor
  · intro hsrc key port hport
    cases (hlearned key port).mp hport with
    | inl hnew =>
      obtain ⟨⟨hcast, hcan, _⟩, hq⟩ := hnew
      rw [hq]
      exact hsrc hcast hcan
    | inr hold => exact hslots key port hold.2
  intro hall hcast hcan
  exact hall (ethKey data 6) node.portno ((hlearned _ _).mpr (.inl ⟨⟨hcast, hcan, rfl⟩, rfl⟩))

lemma handle_dests {j : BitVec 64} (hlen : 14 ≤ len) {h' : IpnHash}
    (hlearn : ipnKvdeLearn j alloc node.portno data h = h') (hok : TableOk h' t)
    (hslots : ∀ key port, h'.Learned key port → ∃ p : Nat, port = p ∧ w.connport p ≠ none) :
    (ipnKvdeSwitchHandlemsg j alloc n node.portno w data len h).2 = h' ∧
    ((isBroadcast data 0 = true ∨ ¬∃ port, h'.Learned (ethKey data 0) port) →
      (ipnKvdeSwitchHandlemsg j alloc n node.portno w data len h).1 = w.connectqueue.filter (· != n)) ∧
    (∀ port, isBroadcast data 0 = false → h'.Learned (ethKey data 0) port →
      ∃ m, w.connport port.toNat = some m ∧ (ipnKvdeSwitchHandlemsg j alloc n node.portno w data len h).1 = [m]) := by
  unfold ipnKvdeSwitchHandlemsg
  rw [if_neg (by omega), hlearn]
  dsimp only
  have hfind := hok.find (ethKey data 0)
  refine ⟨?_, ?_, ?_⟩
  · split
    · rfl
    · rfl
  · intro hflood
    rw [if_pos]
    cases hflood with
    | inl hcast => exact .inl hcast
    | inr hnone =>
      right
      cases hfind with
      | inl hsome =>
        obtain ⟨port, hport, _⟩ := hsome
        exact absurd ⟨port, hport⟩ hnone
      | inr hmiss =>
        rw [hmiss.2]
        decide
  intro port hcast hport
  cases hfind with
  | inr hmiss => exact absurd ⟨port, hport⟩ hmiss.1
  | inl hsome =>
    obtain ⟨q, _, huniq, hq⟩ := hsome
    have hpq := huniq port hport
    obtain ⟨p, hp, hslot⟩ := hslots _ port hport
    obtain ⟨m, hm⟩ := ne_none_iff_exists'.mp hslot
    have hpos : ¬ipnHashFind (ethKey data 0) h' < 0 := by
      rw [hq, ← hpq, hp]
      omega
    have hport' : port.toNat = p := by omega
    refine ⟨m, by rw [hport', hm], ?_⟩
    rw [if_neg (by simp [hcast, hpos]), hq, ← hpq, hport', hm]
    rfl

lemma afterFrame_eq (hn : s.ipn.nodes n = some node) (hipn : node.ipn = some k) (hw : s.ipn.nets k = some w) :
    s.afterFrame n data len t alloc = { s.onHash k (fun h =>
      (ipnKvdeSwitchHandlemsg (BitVec.ofNat 64 t) alloc n node.portno w data len h).2) with now := t } := by
  simp only [KvdeState.afterFrame, hn, hipn, hw]

lemma KvdeInv.afterFrame (hinv : KvdeInv s) (hle : s.now ≤ t) (hn : s.ipn.nodes n = some node)
    (hipn : node.ipn = some k) (hw : s.ipn.nets k = some w)
    (hframe : ∀ h, s.hash k = some h →
      let h' := (ipnKvdeSwitchHandlemsg (BitVec.ofNat 64 t) alloc n node.portno w data len h).2
      TableOk h' t ∧ ∀ key port, h'.Learned key port → ∃ p : Nat, port = p ∧ w.connport p ≠ none) :
    KvdeInv (s.afterFrame n data len t alloc) := by
  rw [afterFrame_eq hn hipn hw]
  let f := fun h => (ipnKvdeSwitchHandlemsg (BitVec.ofNat 64 t) alloc n node.portno w data len h).2
  have htable : ∀ j h, (s.onHash k f).hash j = some h → s.ipn.nets j ≠ none ∧ TableOk h t ∧
      ∀ v, s.ipn.nets j = some v → ∀ key port, h.Learned key port → ∃ p : Nat, port = p ∧ v.connport p ≠ none := by
    intro j h hh
    by_cases hj : j = k
    · subst hj
      rw [KvdeState.onHash_self, map_eq_some_iff] at hh
      obtain ⟨h₀, hh₀, heq⟩ := hh
      obtain ⟨hok, hslots⟩ := hframe h₀ hh₀
      rw [← heq]
      refine ⟨hinv.net j h₀ hh₀, hok, fun v hv => ?_⟩
      rw [hw] at hv
      rw [← some.inj hv]
      exact hslots
    rw [KvdeState.onHash_ne s hj] at hh
    exact ⟨hinv.net j h hh, (hinv.table j h hh).later hle, fun v hv => hinv.slots j h v hh hv⟩
  constructor
  · exact fun j h hh => (htable j h hh).1
  · exact fun j h hh => (htable j h hh).2.1
  · exact fun j h v hh hv => (htable j h hh).2.2 v hv

lemma forall_frame {X : Node → Network → IpnHash → Prop} (hn : s.ipn.nodes n = some node) (hipn : node.ipn = some k)
    (hw : s.ipn.nets k = some w) (hh : s.hash k = some h) :
    (∀ node k w h, s.ipn.nodes n = some node → node.ipn = some k → s.ipn.nets k = some w → s.hash k = some h →
      X node w h) ↔ X node w h := by
  constructor
  · exact fun hall => hall node k w h hn hipn hw hh
  intro hX node' k' w' h' hn' hipn' hw' hh'
  rw [hn] at hn'
  have hnode := some.inj hn'
  subst hnode
  rw [hipn] at hipn'
  have hk := some.inj hipn'
  subst hk
  rw [hw] at hw'
  rw [hh] at hh'
  rw [← some.inj hw', ← some.inj hh']
  exact hX

lemma frame_right_iff (hinv : KvdeInv s) (hle : s.now ≤ t)
    (halloc : ∀ a, alloc = some a → h.elems a = none) (hn : s.ipn.nodes n = some node) (hipn : node.ipn = some k) (hw : s.ipn.nets k = some w)
    (hh : s.hash k = some h) (hlen : 14 ≤ len) :
    (FrameOk s (.frame n data len t alloc) →
      KvdeInv (s.afterFrame n data len t alloc) ∧ FrameRight s (.frame n data len t alloc)) ∧
    (¬FrameOk s (.frame n data len t alloc) →
      ¬(NoEmptySlot (s.afterFrame n data len t alloc) ∧ FrameRight s (.frame n data len t alloc))) := by
  have hslots := hinv.slots k h w hh hw
  obtain ⟨hdest, hsrc⟩ := @frameOk_iff s t data alloc node w h (hinv.table k h hh) hle halloc hslots
  obtain ⟨hok, _⟩ := (hinv.table k h hh).learn hle halloc node.portno data
  generalize hlearn : ipnKvdeLearn (BitVec.ofNat 64 t) alloc node.portno data h = h' at hdest hsrc hok
  have hframeOk : FrameOk s (.frame n data len t alloc) ↔
      (isBroadcast data 0 = false → ¬h'.Learned (ethKey data 0) node.portno) ∧
        ∀ key port, h'.Learned key port → ∃ p : Nat, port = p ∧ w.connport p ≠ none := by
    rw [← hdest, ← hsrc]
    exact (forall_prop_of_true hlen).trans (forall_frame hn hipn hw hh)
  have hright : FrameRight s (.frame n data len t alloc) ↔
      let r := ipnKvdeSwitchHandlemsg (BitVec.ofNat 64 t) alloc n node.portno w data len h
      (isBroadcast data 0 = true ∨ (¬∃ port, r.2.Learned (ethKey data 0) port) →
        r.1 = w.connectqueue.filter (· != n)) ∧
      ∀ port, isBroadcast data 0 = false → r.2.Learned (ethKey data 0) port →
        if port = node.portno then r.1 = [] else ∃ m, w.connport port.toNat = some m ∧ r.1 = [m] := by
    exact (forall_prop_of_true hlen).trans (forall_frame hn hipn hw hh)
  rw [hframeOk, hright]
  constructor
  · rintro ⟨hown, hall⟩
    obtain ⟨htable, hflood, hsend⟩ := @handle_dests n len t data alloc node w h (BitVec.ofNat 64 t) hlen h' hlearn hok hall
    constructor
    · apply hinv.afterFrame hle hn hipn hw
      intro h₀ hh₀
      rw [hh] at hh₀
      rw [← some.inj hh₀]
      dsimp only
      rw [htable]
      exact ⟨hok, hall⟩
    dsimp only
    rw [htable]
    refine ⟨hflood, fun port hcast hport => ?_⟩
    rw [if_neg]
    · exact hsend port hcast hport
    intro hsame
    exact hown hcast (hsame ▸ hport)
  rintro hbad ⟨hempty, hdests⟩
  have hsnd : (ipnKvdeSwitchHandlemsg (BitVec.ofNat 64 t) alloc n node.portno w data len h).2 = h' := by
    unfold ipnKvdeSwitchHandlemsg
    rw [if_neg (by omega), hlearn]
    dsimp only
    split
    · rfl
    · rfl
  have hall : ∀ key port, h'.Learned key port → ∃ p : Nat, port = p ∧ w.connport p ≠ none := by
    rw [afterFrame_eq hn hipn hw] at hempty
    apply hempty k h' w _ hw
    show (s.onHash k _).hash k = some h'
    rw [KvdeState.onHash_self, hh, map_some, hsnd]
  obtain ⟨htable, hflood, hsend⟩ := @handle_dests n len t data alloc node w h (BitVec.ofNat 64 t) hlen h' hlearn hok hall
  apply hbad
  refine ⟨fun hcast hport => ?_, hall⟩
  -- the message goes back to the slot of the sender
  have hback := hdests.2 node.portno hcast (by rw [hsnd]; exact hport)
  rw [if_pos rfl] at hback
  obtain ⟨m, _, hm⟩ := hsend node.portno hcast hport
  rw [hback] at hm
  cases hm

lemma frame_found {node' : Node} {k' : Nat} (hn : s.ipn.nodes n = some node) (hipn : node.ipn = some k)
    (hlen : 14 ≤ len) (hn' : s.ipn.nodes n = some node') (hipn' : node'.ipn = some k') (hw : s.ipn.nets k' = some w)
    (hh : s.hash k' = some h) : 14 ≤ len ∧ ∃ w h, s.ipn.nets k = some w ∧ s.hash k = some h := by
  rw [hn] at hn'
  rw [← some.inj hn', hipn] at hipn'
  rw [some.inj hipn']
  exact ⟨hlen, w, h, hw, hh⟩

lemma frame_ignored (hinv : KvdeInv s) (hle : s.now ≤ t) (hn : s.ipn.nodes n = some node)
    (hipn : node.ipn = some k) (hframe : ¬(14 ≤ len ∧ ∃ w h, s.ipn.nets k = some w ∧ s.hash k = some h)) :
    KvdeInv (s.afterFrame n data len t alloc) ∧ FrameRight s (.frame n data len t alloc) := by
  constructor
  · cases hw : s.ipn.nets k with
    | none =>
      have hsame : s.afterFrame n data len t alloc = s := by simp only [KvdeState.afterFrame, hn, hipn, hw]
      rw [hsame]
      exact hinv
    | some w =>
      apply hinv.afterFrame hle hn hipn hw
      intro h hh
      have hshort : len < 14 := by
        by_contra hlen
        exact hframe ⟨by omega, w, h, hw, hh⟩
      rw [ipnKvdeSwitchHandlemsg, if_pos hshort]
      exact ⟨(hinv.table k h hh).later hle, hinv.slots k h w hh hw⟩
  intro hlen node' k' w h hn' hipn' hw hh
  exact absurd (frame_found hn hipn hlen hn' hipn' hw hh) hframe

end

/-- The learned ports are never empty slots and the messages go to the right nodes, exactly in the runs in which no
message is for a station seen at the port of its sender, and no port is learned whose slot is empty. Neither holds
where a table is used for which there was no memory. -/
theorem kvde_forwards_iff (hz : BitVec 64) (es : List KvdeEvent)
    (hes : (kvdeMachine hz).Along (kvdeMachine hz).enabled kvdeInit es) :
    (kvdeMachine hz).Always NoEmptySlot kvdeInit es ∧
      (kvdeMachine hz).Along (fun s e => TablesThere s e ∧ FrameRight s e) kvdeInit es ↔
    (kvdeMachine hz).Along (fun s e => TablesThere s e ∧ FrameOk s e) kvdeInit es := by
  have hinit : KvdeInv kvdeInit := ⟨nofun, nofun, nofun⟩
  apply Machine.always_and_along_iff KvdeInv (fun _ h => h.slots) _ _ hinit es hes
  · rintro s e hinv he ⟨hthere, hok⟩
    cases e with
    | call e kalloc => exact ⟨hinv.call he.2.1 he.2.2, hthere, trivial⟩
    | timer k t => exact ⟨hinv.timer he.1, hthere, trivial⟩
    | frame n data len t alloc =>
      obtain ⟨hle, node, k, hn, _, hipn, halloc⟩ := he
      have hframe : KvdeInv (s.afterFrame n data len t alloc) ∧ FrameRight s (.frame n data len t alloc) := by
        by_cases hframe : 14 ≤ len ∧ ∃ w h, s.ipn.nets k = some w ∧ s.hash k = some h
        · obtain ⟨hlen, w, h, hw, hh⟩ := hframe
          exact (frame_right_iff hinv hle (fun a ha => halloc a h ha hh) hn hipn hw hh hlen).1 hok
        · exact frame_ignored hinv hle hn hipn hframe
      exact ⟨hframe.1, hthere, hframe.2⟩
  rintro s e hinv he hbad ⟨hempty, hthere, hright⟩
  have hbad : ¬FrameOk s e := fun hok => hbad ⟨hthere, hok⟩
  cases e with
  | call e kalloc => exact hbad trivial
  | timer k t => exact hbad trivial
  | frame n data len t alloc =>
    obtain ⟨hle, node, k, hn, _, hipn, halloc⟩ := he
    by_cases hframe : 14 ≤ len ∧ ∃ w h, s.ipn.nets k = some w ∧ s.hash k = some h
    · obtain ⟨hlen, w, h, hw, hh⟩ := hframe
      exact (frame_right_iff hinv hle (fun a ha => halloc a h ha hh) hn hipn hw hh hlen).2 hbad ⟨hempty, hright⟩
    apply hbad
    intro hlen node' k' w h hn' hipn' hw hh
    exact absurd (frame_found hn hipn hlen hn' hipn' hw hh) hframe

def frameData (dst src : UInt8) : Mem :=
  memcpy (fun _ => 0) 0 [dst, 0, 0, 0, 0, 0, src, 0, 0, 0, 0, 0, 8, 0]

/-- Two sockets of a network of the switch; the second answers a message of the first. -/
def answerRun : List KvdeEvent :=
  [.call (.socket 0 2 true) true, .call (.bind 0 true true (.created 0)) true,
    .call (.connect 0 true true (.failed 0)) true, .call (.socket 1 2 true) true,
    .call (.connect 1 true true (.found 0 0 true 0)) true, .frame 0 (frameData 0xff 2) 14 1 (some 0),
    .frame 1 (frameData 2 4) 14 2 none]

/-- Two stations are behind the first socket, and one sends a message to the other. -/
def sameportRun : List KvdeEvent :=
  [.call (.socket 0 2 true) true, .call (.bind 0 true true (.created 0)) true,
    .call (.connect 0 true true (.failed 0)) true, .frame 0 (frameData 0xff 2) 14 1 (some 0),
    .frame 0 (frameData 2 4) 14 2 none]

theorem frame_reflected : (kvdeMachine 250).Along (kvdeMachine 250).enabled kvdeInit sameportRun ∧
    ¬((kvdeMachine 250).Always NoEmptySlot kvdeInit sameportRun ∧
      (kvdeMachine 250).Along FrameRight kvdeInit sameportRun) := by
  constructor
  · refine ⟨⟨rfl, rfl, nofun⟩, ⟨rfl, ⟨⟨_, rfl, rfl, rfl⟩, rfl⟩, nofun⟩, ⟨rfl, ⟨_, rfl, rfl, rfl⟩, nofun⟩,
      ⟨by decide, _, _, rfl, rfl, rfl, ?_⟩, ⟨by decide, _, _, rfl, rfl, rfl, nofun⟩, trivial⟩
    intro a h _ hh
    have hhash := some.inj hh
    rw [← hhash]
  rintro ⟨_, _, _, _, _, hright, _⟩
  have hdests := (hright (by decide) _ _ _ _ rfl rfl rfl rfl).2 0 (by decide) ⟨0, _, rfl, by decide, rfl⟩
  cases hdests

theorem kvde_forwards_answer : (kvdeMachine 250).Always NoEmptySlot kvdeInit answerRun ∧
    (kvdeMachine 250).Along (fun s e => TablesThere s e ∧ FrameRight s e) kvdeInit answerRun := by
  have hthere : (kvdeMachine 250).Along TablesThere kvdeInit answerRun := by
    refine ⟨nofun, nofun, ?_, ?_, ?_, ?_, ?_, trivial⟩
    all_goals
      intro k w _ hw _
      cases k with
      | zero => exact nofun
      | succ k => cases hw
  apply (kvde_forwards_iff 250 answerRun _).mpr
  · apply hthere.and
    refine ⟨trivial, trivial, trivial, trivial, trivial, ?_, ?_, trivial⟩
    · intro _ node k w h hn hipn hw hh
      have hnode := some.inj hn
      subst hnode
      have hk := some.inj hipn
      subst hk
      have hnet := some.inj hw
      subst hnet
      exact ⟨fun hdest => absurd hdest (by decide), fun _ _ => ⟨0, rfl, nofun⟩⟩
    intro _ node k w h hn hipn hw hh
    have hnode := some.inj hn
    subst hnode
    have hk := some.inj hipn
    subst hk
    have hnet := some.inj hw
    subst hnet
    refine ⟨fun _ => ?_, fun _ _ => ⟨1, rfl, nofun⟩⟩
    rw [if_neg (by decide)]
    rintro ⟨a, e, he, _, hport⟩
    have hhash := some.inj hh
    subst hhash
    have he : update (fun _ => none) 0 (some (⟨ethKey (frameData 0xff 2) 6, 0, 7501⟩ : IpnHashElem)) a =
      some e := he
    by_cases ha : a = 0
    · rw [ha, update_self] at he
      rw [← some.inj he] at hport
      cases hport
    rw [update_of_ne ha] at he
    cases he
  refine ⟨⟨rfl, rfl, nofun⟩, ⟨rfl, ⟨⟨_, rfl, rfl, rfl⟩, rfl⟩, nofun⟩, ⟨rfl, ⟨_, rfl, rfl, rfl⟩, nofun⟩,
    ⟨rfl, rfl, nofun⟩, ⟨rfl, ⟨_, rfl, rfl, rfl⟩, nofun⟩, ⟨by decide, _, _, rfl, rfl, rfl, ?_⟩,
    ⟨by decide, _, _, rfl, rfl, rfl, nofun⟩, trivial⟩
  intro a h _ hh
  have hhash := some.inj hh
  rw [← hhash]

end Vde.Ipn
