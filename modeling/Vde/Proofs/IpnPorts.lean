import Vde.Lib.Machine
import Vde.Proofs.IpnPlaces

/-!
# The port table of an IPN network

Calls on sockets and devices, in any order. The table of the ports agrees with the queues and with the
nodes, and a release clears only slots of its own node, unless a port number set by `IPN_SO_PORT` is
taken for a port on release, a call is interrupted half way, or a table is given a size of more than
16 bits.
-/

namespace Vde.Ipn

open Function List
open Option hiding or_assoc

/-! ## Runs -/

/-- A call on a socket or on a device file. The booleans are the semaphores that are got, and memory. -/
inductive IpnEvent where
  | socket (n : Nat) (protocol : Int) (registered : Bool)
  | bind (n : Nat) (lock registered : Bool) (path : BindPath)
  | connect (n : Nat) (lock netLock : Bool) (path : ConnectPath)
  | ioctl (n : Nat) (req : Ioctl)
  | chrdevOpen (n k : Nat) (modeRead modeWrite : Bool) (mayRead mayWrite : Int) (alloc : Bool)
      (locks : OpenLocks) (stale : Bool)
  | setsockopt (n : Nat) (level : Int) (optname : BitVec 32) (optlen : Nat) (val : Int)
      (netLock pbpAlloc alloc : Bool)
  | shutdown (n : Nat) (mode : Int) (netLock : Bool)
  | release (n : Nat) (lock netLock : Bool)

def State.onNode (s : State) (n : Nat) (f : Node → Int × State) : State :=
  match s.nodes n with
  | none => s
  | some node => (f node).2

def ipnStep (s : State) : IpnEvent → State
  | .socket n protocol registered => (ipnCreate s n protocol registered).2
  | .bind n lock registered path => s.onNode n fun node => ipnBind s n node lock registered path
  | .connect n lock netLock path => s.onNode n fun node => ipnConnect s n node lock netLock path
  | .ioctl n req => s.onNode n fun node => ipnIoctl s n node req
  | .chrdevOpen n k modeRead modeWrite mayRead mayWrite alloc locks stale =>
    (ipnChrdevOpen s n k modeRead modeWrite mayRead mayWrite alloc locks stale).2
  | .setsockopt n level optname optlen val netLock pbpAlloc alloc =>
    s.onNode n fun node => ipnSetsockopt s n node level optname optlen val netLock pbpAlloc alloc
  | .shutdown n mode netLock => s.onNode n fun node => ipnShutdown s n node mode netLock
  | .release n lock netLock => s.onNode n fun node => ipnRelease s n node lock netLock

/-- `n` is the node of a file that is open; for the calls of sockets, of a socket. -/
def State.HasFile (s : State) (n : Nat) : Prop := ∃ node, s.nodes n = some node ∧ node.closed = false

def State.HasSocket (s : State) (n : Nat) : Prop :=
  ∃ node, s.nodes n = some node ∧ node.closed = false ∧ node.sock.isSome

/-- New nodes and networks come at free addresses, and a device that is opened is registered. -/
def IpnEvent.Legal (s : State) : IpnEvent → Prop
  | .socket n _ _ => s.nodes n = none
  | .bind n _ _ path => s.HasSocket n ∧
      match path with
      | .created k => s.nets k = none
      | _ => True
  | .connect n _ _ _ | .ioctl n _ | .setsockopt n _ _ _ _ _ _ _ | .shutdown n _ _ => s.HasSocket n
  | .chrdevOpen n k _ _ _ _ _ _ _ => s.nodes n = none ∧ ∃ w, s.nets k = some w ∧ w.chrdev.isSome
  | .release n _ _ => s.HasFile n

def ipnMachine : Machine State IpnEvent where
  enabled s e := s.fault = false ∧ e.Legal s
  step := ipnStep

def ipnInit : State := { nodes := fun _ => none, nets := fun _ => none, fault := false }

/-! ## The claims -/

/-- What the table of the ports should say, and no index or pointer was wrong so far. -/
def PortsRight (s : State) : Prop :=
  s.fault = false ∧ ∀ k w, s.nets k = some w →
    (∀ p n, w.connport p = some n ↔ n ∈ w.connectqueue ∧ ∃ node, s.nodes n = some node ∧ node.portno = p) ∧
    ∀ n ∈ w.connectqueue, ∃ node, s.nodes n = some node ∧ 0 ≤ node.portno ∧ node.portno < w.maxports

def State.slot (s : State) (k p : Nat) : Option Nat := (s.nets k).bind fun w => w.connport p

def ReleaseRight (s : State) : IpnEvent → Prop
  | .release n lock netLock => ∀ k p, (ipnStep s (.release n lock netLock)).slot k p ≠ s.slot k p →
      s.slot k p = some n
  | _ => True

/-! ## The steps that are right -/

/-- A node that goes and has no port was bound, and its port number is no port that is taken. The last node
that counts leaves no other behind: one whose `connect` was interrupted has the network but does not
count. -/
def ReleaseOk (s : State) (n : Nat) (node : Node) : Prop :=
  ∀ k w, node.ipn = some k → s.nets k = some w →
    (node.connected = false → node.bound = true ∧
      (0 ≤ node.portno → node.portno < w.maxports ∧ w.connport node.portno.toNat = none)) ∧
    (w.refcnt = 1 → ipnIsPersistentChrdev w = false →
      ∀ m node', m ≠ n → s.nodes m = some node' → node'.closed = false → node'.ipn ≠ some k)

/-- When an open fails, the variable that is not set has NULL in it; and when it fails at the network, after
`ipn` was set, the release fails as well. -/
def OpenOk (s : State) (k : Nat) (locks : OpenLocks) (stale : Bool) : Prop :=
  ∀ w, s.nets k = some w →
    (locks.lock = false ∨ locks.netLock = false ∨ ipnNewport w < 0 → stale = false) ∧
    (locks.lock = true → locks.netLock = false → locks.releaseLock = false ∨ locks.releaseNetLock = false)

/-- The new size of the table has more than 16 bits only where the ports that are taken stay below the
size as it is stored. -/
def ResizeOk (s : State) (node : Node) (val : Int) : Prop :=
  ∀ k w, node.ipn = some k → s.nets k = some w → 65536 ≤ val →
    ∀ p m, w.connport p = some m → p < u16 val

def StepOk (s : State) : IpnEvent → Prop
  | .release n true true => ∀ node, s.nodes n = some node → ReleaseOk s n node
  | .ioctl n (.net (.connNetdev true true true true activate)) =>
    ∀ node, s.nodes n = some node → node.sock = some .unconnected → node.ipn.isSome → activate = 0 →
      node.bound = true
  | .chrdevOpen _ k modeRead modeWrite mayRead mayWrite alloc locks stale =>
    (modeRead = false ∨ mayRead = -EACCES ∨ mayRead = -EROFS) ∧ (modeWrite = false ∨ mayWrite = -EACCES) ∨
      alloc = true ∧ OpenOk s k locks stale
  | .setsockopt n level optname _ val netLock _ alloc =>
    level = 0 → optname = IPN_SO_CHANGE_NUMNODES → netLock = true → alloc = true →
      ∀ node, s.nodes n = some node → ResizeOk s node val
  | _ => True

lemma portsRight_of_inv {s : State} (h : Inv s) : PortsRight s := by
  have hport : ∀ n k p, s.place n = .port k p → ∃ node, s.nodes n = some node ∧ node.portno = p := by
    intro n k p hn
    cases hnode : s.nodes n with
    | none =>
      rw [State.place, hnode] at hn
      exact Place.noConfusion hn
    | some node =>
      rw [State.place_eq hnode] at hn
      exact ⟨node, rfl, (Node.place_eq_port hn).2.2⟩
  apply And.intro h.fault
  intro k w hw
  have hk := h.net k w hw
  constructor
  · intro p n
    rw [hk.slots p n, hk.conn n]
    constructor
    · intro hn
      exact ⟨⟨p, hn⟩, hport n k p hn⟩
    rintro ⟨⟨q, hq⟩, node, hnode, hp⟩
    rw [State.place_eq hnode] at hq
    rw [State.place_eq hnode, hq, ← hp, (Node.place_eq_port hq).2.2]
  intro n hn
  obtain ⟨p, hp⟩ := (hk.conn n).1 hn
  obtain ⟨node, hnode, hportno⟩ := hport n k p hp
  have hlt := hk.portLt n p hp
  exact ⟨node, hnode, by omega, by omega⟩

/-! ## Ports -/

lemma ipnNewport_cases (w : Network) : ipnNewport w = -1 ∨
    ∃ p : Nat, ipnNewport w = p ∧ p < w.maxports ∧ w.connport p = none := by
  unfold ipnNewport
  cases hfind : (range w.maxports).find? (fun i => (w.connport i).isNone) with
  | none => exact .inl rfl
  | some p =>
    have hp := mem_range.1 (mem_of_find?_eq_some hfind)
    have hfree := find?_some hfind
    exact .inr ⟨p, rfl, hp, Option.isNone_iff_eq_none.1 hfree⟩

lemma Network.store_eq {w : Network} {p : Nat} (hp : p < w.maxports) (v : Option Nat) :
    w.store p v = some { w with connport := update w.connport p v } := by
  have hrange : (0 : Int) ≤ p ∧ (p : Int) < w.maxports := by omega
  rw [Network.store, if_pos hrange, Int.toNat_natCast]

lemma Network.clear_eq {w : Network} {p : Int} (hp : p < w.maxports) :
    ∃ connport, (if 0 ≤ p then w.store p none else some w) = some { w with connport := connport } := by
  by_cases hpos : 0 ≤ p
  · rw [if_pos hpos, Network.store, if_pos ⟨hpos, hp⟩]
    exact ⟨_, rfl⟩
  rw [if_neg hpos]
  exact ⟨_, rfl⟩

lemma setNet_setNet (s : State) (k : Nat) (w w' : Network) : (s.setNet k w).setNet k w' = s.setNet k w' := by
  simp [State.setNet]

lemma setNode_setNode (s : State) (n : Nat) (node node' : Node) :
    (s.setNode n node).setNode n node' = s.setNode n node' := by
  simp [State.setNode]

lemma State.net_eq {s : State} {k : Nat} {w : Network} (hw : s.nets k = some w) (f : Network → Int × State) :
    s.net k f = f w := by
  rw [State.net, hw]

variable {place : Nat → Place} {lock : Bool}

section

variable {s : State} {n k : Nat} {node : Node} {w : Network}

lemma NetOk.enter_waiting {p : Nat} (h : NetOk place k w) (hold : place n = .waiting k)
    (hp : p < w.maxports) (hfree : w.connport p = none) :
    NetOk (update place n (.port k p)) k
      { w.listDel n with
        connport := update w.connport p (some n)
        connectqueue := (w.listDel n).connectqueue ++ [n] } := by
  have hcounts : (place n).CountsAt k := by
    rw [hold]
    rfl
  have hslots : ∀ q m, w.connport q = some m ↔ w.connport q = some m ∧ m ≠ n := by
    intro q m
    apply Iff.intro _ And.left
    intro hm
    apply And.intro hm
    intro hmn
    rw [hmn, h.slots q n, hold] at hm
    exact Place.noConfusion hm
  have hleft := h.leave hcounts hslots
  have haway : ¬(update place n Place.away n).CountsAt k := by simp [Place.CountsAt]
  have hentered := hleft.enter (p := p) haway hp hfree
  rw [update_idem] at hentered
  have hcount : w.refcnt - 1 + 1 = w.refcnt := by omega
  simp only [hcount] at hentered
  exact hentered

/-! ## Bind -/

lemma ipnNodeBind_eq (hw : s.nets k = some w) (hipn : node.ipn = none) : ipnNodeBind s n node (some k) =
    (0, (s.setNet k { w with refcnt := w.refcnt + 1, unconnectqueue := w.unconnectqueue ++ [n] }).setNode n
      { node with ipn := some k, bound := true }) := by
  simp [ipnNodeBind, hipn, State.net_eq hw]

/-! ## What an ioctl does -/

/-- What `ipn_ioctl` comes to: nothing, a fault in a network that is gone, a node that waits in the network of a device,
a device more or less, a device that finds no memory or port or is not activated, or one that gets a port. -/
inductive IoctlCase (s : State) (n : Nat) (node : Node) (req : Ioctl) : State → Prop
  | same : IoctlCase s n node req s
  | wild (k : Nat) (hipn : node.ipn = some k) (hw : s.nets k = none) : IoctlCase s n node req s.wild
  | joined (k : Nat) (w : Network) (hipn : node.ipn = none) (hw : s.nets k = some w) :
      IoctlCase s n node req ((s.setNet k { w with
        refcnt := w.refcnt + 1, unconnectqueue := w.unconnectqueue ++ [n] }).setNode n
          { node with ipn := some k, bound := true })
  | chrdev (k : Nat) (w : Network) (chrdev : Option Bool) (hipn : node.ipn = some k) (hw : s.nets k = some w) :
      IoctlCase s n node req (s.setNet k { w with chrdev := chrdev })
  | undone (k : Nat) (w : Network) (hipn : node.ipn = some k) (hw : s.nets k = some w)
      (hsock : node.sock = some .unconnected) : IoctlCase s n node req (s.setNode n { node with netdev := false })
  | refused (k : Nat) (w : Network) (hipn : node.ipn = some k) (hw : s.nets k = some w)
      (hsock : node.sock = some .unconnected) :
      IoctlCase s n node req ((s.setNet k w).setNode n { node with netdev := false, portno := -1 })
  | attached (k : Nat) (w : Network) (p : Nat) (hreq : req = .net (.connNetdev true true true true 0))
      (hreset : node.shutdown ≠ SHUTDOWN_XMASK) (hipn : node.ipn = some k) (hw : s.nets k = some w)
      (hterm : w.terminated = false) (hsock : node.sock = some .unconnected) (hport : ipnNewport w = p)
      (hlt : p < w.maxports) (hfree : w.connport p = none) :
      IoctlCase s n node req ((s.setNet k { w.listDel n with
        connport := update w.connport p (some n)
        connectqueue := (w.listDel n).connectqueue ++ [n] }).setNode n
          { node with sock := some .connected, netdev := true, portno := p })

lemma ipnNetdevPort_case {activate : Int} {req : Ioctl} (hipn : node.ipn = some k) (hw : s.nets k = some w)
    (hsock : node.sock = some .unconnected)
    (hok : activate = 0 → req = .net (.connNetdev true true true true 0) ∧ node.shutdown ≠ SHUTDOWN_XMASK ∧
      w.terminated = false) : IoctlCase s n node req (ipnNetdevPort s n node k w activate).2 := by
  unfold ipnNetdevPort
  cases ipnNewport_cases w with
  | inl hfull =>
    simp only [hfull]
    rw [if_neg (by omega)]
    exact .undone k w hipn hw hsock
  | inr hport =>
    obtain ⟨p, hp, hlt, hfree⟩ := hport
    have hrange : (0 : Int) ≤ p ∧ (p : Int) < w.maxports := by omega
    simp only [hp, Network.store_eq hlt]
    rw [if_pos hrange]
    by_cases hact : activate = 0
    · obtain ⟨hreq, hreset, hterm⟩ := hok hact
      rw [if_neg (not_not.2 hact)]
      exact .attached k w p hreq hreset hipn hw hterm hsock hp hlt hfree
    have hlt' : p < ({ w with connport := update w.connport p (some n) } : Network).maxports := hlt
    have hback : update (update w.connport p (some n)) p none = w.connport := by
      rw [update_idem, ← hfree, update_eq_self]
    rw [if_pos hact]
    simp only [Network.store_eq hlt', hback]
    exact .refused k w hipn hw hsock

lemma ipnIoctl_case (s : State) (n : Nat) (node : Node) (req : Ioctl) :
    IoctlCase s n node req (ipnIoctl s n node req).2 := by
  unfold ipnIoctl
  by_cases hreset : node.shutdown = SHUTDOWN_XMASK
  · rw [if_pos hreset]
    exact .same
  rw [if_neg hreset]
  cases req with
  | joinChrdev capable lock k =>
    dsimp only
    split_ifs with _ hipn
    · exact .same
    · exact .same
    · exact .same
    have hipn : node.ipn = none := by simpa using hipn
    unfold ipnFindChrdev
    cases hw : s.nets k with
    | none => exact .same
    | some w =>
      dsimp only
      split_ifs
      · rw [ipnNodeBind_eq hw hipn]
        exact .joined k w hipn hw
      · exact .same
  | net req =>
    cases hipn : node.ipn with
    | none => exact .same
    | some k =>
      cases hw : s.nets k with
      | none =>
        simp only [State.net, hw]
        exact .wild k hipn hw
      | some w =>
        simp only [State.net_eq hw]
        split_ifs with hterm
        · exact .same
        unfold ipnNetIoctl
        cases req with
        | connNetdev capable lock netLock alloc activate =>
          unfold ipnConnectNetdev
          simp only [hipn, State.net_eq hw]
          split_ifs with hcapable hsock hlock hnetLock halloc
          · exact .same
          · exact .same
          · exact .same
          · exact .same
          · have hundone : IoctlCase s n node (.net (.connNetdev capable lock netLock alloc activate)) _ :=
              .undone k w hipn hw (not_not.1 hsock)
            rwa [hipn] at hundone
          · refine ipnNetdevPort_case hipn hw (not_not.1 hsock) fun hact => ?_
            simp only [Bool.not_eq_true, Bool.not_eq_false'] at hcapable hlock hnetLock halloc hterm
            rw [hcapable, hlock, hnetLock, halloc, hact]
            exact ⟨rfl, hreset, hterm⟩
        | registerChrdev =>
          dsimp only
          split_ifs <;> first | exact .same | exact .chrdev k w _ hipn hw
        | unregisterChrdev =>
          dsimp only
          split_ifs <;> first | exact .same | exact .chrdev k w _ hipn hw
        | chrdevPersist =>
          dsimp only
          split_ifs <;> first | exact .same | exact .chrdev k w _ hipn hw

lemma ipnNodeBind_inv (h : Inv s) (hplace : s.place n = .away) (hipn : node.ipn = none)
    (hsock : node.sock = some .unconnected) {ipnn : Option Nat} (hnet : ∀ k, ipnn = some k → s.nets k ≠ none) :
    Inv (ipnNodeBind s n node ipnn).2 := by
  cases ipnn with
  | none => exact h
  | some k =>
    obtain ⟨w, hw⟩ := ne_none_iff_exists'.1 (hnet k rfl)
    rw [ipnNodeBind_eq hw hipn]
    have hnew : ({ node with ipn := some k, bound := true } : Node).place = .waiting k := by
      apply Node.place_of_bound rfl _ rfl
      simp [Node.connected, hsock]
    apply h.setBoth
    · intro _ hnone
      exact absurd hnone (some_ne_none k)
    · intro k' hk
      rw [hplace] at hk
      exact hk.elim
    · intro k' hk
      rw [hnew] at hk
      exact hk.symm
    · rw [hnew]
      apply (h.net k w hw).enqueue
      rw [hplace]
      exact not_false

lemma ipnBind_cases (s : State) (n : Nat) (node : Node) (lock registered : Bool) (path : BindPath) :
    (ipnBind s n node lock registered path).2 = s ∧
        (∀ k, path = .created k → (ipnBind s n node lock registered path).1 ≠ 0) ∨
      node.sock = some .unconnected ∧ node.ipn = none ∧ ∃ k s',
        ipnBind s n node lock registered path = (0, (ipnNodeBind s' n { node with pbp := none } (some k)).2) ∧
          (path = .created k ∧ s' = s.setNet k (newNetwork node.protocol (node.pbp.getD stdBindParms)) ∨
            (∀ k', path ≠ .created k') ∧ s' = s ∧ ∃ w, s.nets k = some w) := by
  generalize hr : ipnBind s n node lock registered path = r
  unfold ipnBind at hr
  split at hr
  · rw [← hr]
    exact .inl ⟨rfl, fun _ _ => by simp [ERESTARTSYS]⟩
  split at hr
  · rw [← hr]
    exact .inl ⟨rfl, fun _ _ => by simp [EISCONN]⟩
  next hstate =>
  split at hr
  · rw [← hr]
    exact .inl ⟨rfl, fun _ _ => by simp [EPROTONOSUPPORT]⟩
  have hnew : node.sock = some .unconnected ∧ node.ipn = none := by simpa using hstate
  cases path with
  | failed err =>
    rw [← hr]
    exact .inl ⟨rfl, fun k hk => absurd hk (by simp)⟩
  | created k => exact .inr ⟨hnew.1, hnew.2, k, _, hr.symm, .inl ⟨rfl, rfl⟩⟩
  | found permission isSock k =>
    have hother : ∀ k', BindPath.found permission isSock k ≠ .created k' := fun k' hk => absurd hk (by simp)
    dsimp only at hr
    split at hr
    · rw [← hr]
      exact .inl ⟨rfl, fun k' hk => absurd hk (hother k')⟩
    split at hr
    · rw [← hr]
      exact .inl ⟨rfl, fun k' hk => absurd hk (hother k')⟩
    split at hr
    · rw [← hr]
      exact .inl ⟨rfl, fun k' hk => absurd hk (hother k')⟩
    split at hr
    · rw [← hr]
      exact .inl ⟨rfl, fun k' hk => absurd hk (hother k')⟩
    next w hw =>
    split at hr
    · rw [← hr]
      exact .inl ⟨rfl, fun k' hk => absurd hk (hother k')⟩
    · exact .inr ⟨hnew.1, hnew.2, k, s, hr.symm, .inr ⟨hother, rfl, w, hw⟩⟩

lemma ipnBind_inv (h : Inv s) (hn : s.nodes n = some node) {registered : Bool} {path : BindPath}
    (hnew : ∀ k, path = .created k → s.nets k = none) : Inv (ipnBind s n node lock registered path).2 := by
  have hbind : ∀ {s' : State} {k : Nat}, node.sock = some .unconnected → node.ipn = none → Inv s' →
      s'.nodes = s.nodes → s'.nets k ≠ none →
      Inv (ipnNodeBind s' n { node with pbp := none } (some k)).2 := by
    intro s' k hsock hipn hinv hnodes hk
    have hipn' : ({ node with pbp := none } : Node).ipn = none := hipn
    apply ipnNodeBind_inv hinv _ hipn' hsock
    · intro k' hk'
      rw [← some.inj hk']
      exact hk
    have hn' : s'.nodes n = some node := by rw [hnodes, hn]
    exact (State.place_eq hn').trans (Node.place_of_none hipn)
  rcases ipnBind_cases s n node lock registered path with ⟨heq, -⟩ | ⟨hsock, hipn, k, s', heq, hpath⟩
  · rw [heq]
    exact h
  rw [heq]
  rcases hpath with ⟨hpath, rfl⟩ | ⟨-, rfl, w, hw⟩
  · have hempty : Inv (s.setNet k (newNetwork node.protocol (node.pbp.getD stdBindParms))) := by
      apply h.setNet
      apply netOk_newNetwork
      intro m hm
      exact h.live m k hm (hnew k hpath)
    apply hbind hsock hipn hempty rfl
    simp
  apply hbind hsock hipn h rfl
  rw [hw]
  exact some_ne_none w

/-! ## Connect -/

lemma ipnConnectPath_cases (s : State) (node : Node) (path : ConnectPath) :
    (∃ err sh, ipnConnectPath s node path = (.error err, { node with shutdown := sh })) ∨
      ∃ k w protocol sh, s.nets k = some w ∧
        ipnConnectPath s node path = (.ok k, { node with shutdown := sh, protocol := protocol, ipn := some k }) := by
  generalize hr : ipnConnectPath s node path = r
  cases path with
  | failed err => exact .inl ⟨err, node.shutdown, hr.symm⟩
  | found mayRead mayWrite isSock k =>
    unfold ipnConnectPath at hr
    dsimp only at hr
    split at hr
    · exact .inl ⟨_, _, hr.symm⟩
    split at hr
    · exact .inl ⟨_, _, hr.symm⟩
    split at hr
    · exact .inl ⟨_, _, hr.symm⟩
    split at hr
    · exact .inl ⟨_, _, hr.symm⟩
    split at hr
    · exact .inl ⟨_, _, hr.symm⟩
    next w hw =>
    split at hr
    · exact .inl ⟨_, _, hr.symm⟩
    split at hr
    · exact .inr ⟨k, w, w.protocol, _, hw, hr.symm⟩
    split at hr
    · exact .inl ⟨_, _, hr.symm⟩
    · exact .inr ⟨k, w, node.protocol, _, hw, hr.symm⟩

lemma ipnConnectAt_inv (h : Inv s) (hipn : node.ipn = some k) (hw : s.nets k = some w)
    (hold : ∀ k', (s.place n).Refers k' → k' = k)
    (hbefore : node.bound = true ∧ s.place n = .waiting k ∨ node.bound = false ∧ ¬(s.place n).CountsAt k)
    {previousipnn : Option Nat} (hstay : Inv (s.setNode n node))
    (hback : Inv (s.setNode n { node with ipn := previousipnn })) (netLock : Bool) :
    Inv (ipnConnectAt s n node previousipnn k netLock).2 := by
  rw [ipnConnectAt, State.net_eq hw]
  cases netLock with
  | false => exact hstay
  | true =>
    dsimp only
    rw [if_neg (by simp)]
    cases ipnNewport_cases w with
    | inl hfull =>
      rw [hfull, if_neg (by omega)]
      exact hback
    | inr hport =>
      obtain ⟨p, hp, hlt, hfree⟩ := hport
      rw [hp, if_pos (by omega), Network.store_eq hlt]
      have hnew : ({ node with sock := some .connected, portno := (p : Int) } : Node).place = .port k p :=
        Node.place_of_connected hipn rfl
      apply h.setBoth
      · intro _ hnone
        exact absurd (hipn.symm.trans hnone) (some_ne_none k)
      · exact hold
      · intro k' hk
        rw [hnew] at hk
        exact hk.symm
      · rw [hnew]
        cases hbefore with
        | inl hwait =>
          simp only [hwait.1, Bool.not_true, Bool.false_eq_true, if_false]
          exact (h.net k w hw).enter_waiting hwait.2 hlt hfree
        | inr haway =>
          simp only [haway.1, Bool.not_false, if_true]
          exact (h.net k w hw).enter haway.2 hlt hfree

lemma ipnConnect_inv (h : Inv s) (hn : s.nodes n = some node) (hopen : node.closed = false)
    (lock netLock : Bool) (path : ConnectPath) : Inv (ipnConnect s n node lock netLock path).2 := by
  unfold ipnConnect
  split_ifs with hsock hlock
  · exact h
  · exact h
  have hsock : node.sock = some .unconnected := not_not.1 hsock
  have hconn : node.connected = false := by simp [Node.connected, hsock]
  have hplace := State.place_eq hn
  cases hipn : node.ipn with
  | some k =>
    obtain ⟨w, hw⟩ := h.net_of_open hn hopen hipn
    have hstay : Inv (s.setNode n node) := h.setNode_same (h.fresh n node hn) hplace.symm
    have hback : Inv (s.setNode n { node with ipn := some k }) := by
      rw [← hipn]
      exact hstay
    apply ipnConnectAt_inv h hipn hw _ _ hstay hback
    · exact fun k' hk => State.refers_eq hn hipn hk
    cases hb : node.bound with
    | true => exact .inl ⟨rfl, hplace.trans (Node.place_of_bound hipn hconn hb)⟩
    | false =>
      right
      rw [hplace]
      simp [Node.place, hipn, hconn, hb, hopen, Place.CountsAt]
  | none =>
    obtain ⟨_, hb⟩ := h.fresh n node hn hopen hipn
    have haway : s.place n = .away := hplace.trans (Node.place_of_none hipn)
    have hfresh : ∀ sh protocol ipnn, ({ node with shutdown := sh, protocol := protocol, ipn := ipnn } : Node).Fresh :=
      fun _ _ _ _ _ => ⟨hsock, hb⟩
    have hsame : ∀ sh protocol, Inv (s.setNode n { node with shutdown := sh, protocol := protocol, ipn := none }) := by
      intro sh protocol
      apply h.setNode_same (hfresh sh protocol none)
      rw [haway]
      exact Node.place_of_none rfl
    cases ipnConnectPath_cases s node path with
    | inl herr =>
      obtain ⟨err, sh, heq⟩ := herr
      simp only [heq]
      have := hsame sh node.protocol
      rw [← hipn] at this
      exact this
    | inr hfound =>
      obtain ⟨k, w, protocol, sh, hw, heq⟩ := hfound
      simp only [heq]
      apply ipnConnectAt_inv h rfl hw
      · intro k' hk
        rw [haway] at hk
        exact hk.elim
      · right
        rw [haway]
        exact ⟨hb, not_false⟩
      · apply h.setNode_stray (hfresh sh protocol (some k)) haway hw
        have hstray : ({ node with shutdown := sh, protocol := protocol, ipn := some k } : Node).connected = false :=
          hconn
        rw [Node.place, hstray]
        simp [hb, hopen]
      · exact hsame sh protocol
end

/-! ## Release -/

lemma State.freeNode_setNode (s : State) (n : Nat) (node : Node) : (s.setNode n node).freeNode n = s.freeNode n := by
  simp [State.setNode, State.freeNode]

variable {netLock : Bool}

section

variable {s : State} {n k : Nat} {node : Node} {w : Network}

lemma NetOk.sole {m : Nat} (h : NetOk place k w) (hone : w.refcnt = 1)
    (hn : (place n).CountsAt k) (hm : (place m).CountsAt k) : m = n := by
  have hmem : ∀ m, (place m).CountsAt k → m ∈ w.connectqueue ++ w.unconnectqueue := by
    intro m hm
    rw [mem_append, h.conn m, h.wait m]
    cases hq : place m with
    | away | stray =>
      rw [hq] at hm
      exact hm.elim
    | waiting k' =>
      rw [hq] at hm
      exact .inr (congrArg _ hm)
    | port k' p =>
      rw [hq] at hm
      exact .inl ⟨p, congrArg (Place.port · p) hm⟩
  have hlength : (w.connectqueue ++ w.unconnectqueue).length = 1 := by
    have := h.count
    rw [length_append]
    omega
  obtain ⟨a, ha⟩ := length_eq_one_iff.1 hlength
  have hna := hmem n hn
  have hma := hmem m hm
  rw [ha, mem_singleton] at hna hma
  rw [hna, hma]

lemma release_store (h : NetOk s.place k w) (hn : s.nodes n = some node) (hipn : node.ipn = some k)
    (hok : node.connected = false → node.bound = true ∧
      (0 ≤ node.portno → node.portno < w.maxports ∧ w.connport node.portno.toNat = none)) :
    ∃ connport, (if 0 ≤ node.portno then w.store node.portno none else some w) = some { w with connport := connport } ∧
      (∀ p m, connport p = some m ↔ w.connport p = some m ∧ m ≠ n) ∧ (s.place n).CountsAt k := by
  have hplace := State.place_eq hn
  cases hc : node.connected with
  | true =>
    rw [Node.place_of_connected hipn hc] at hplace
    obtain ⟨hpos, hlt⟩ := h.portLt n node.portno hplace
    obtain ⟨p, hp⟩ := Int.eq_ofNat_of_zero_le hpos
    have hplt : p < w.maxports := by omega
    rw [hp] at hplace
    rw [if_pos hpos, hp, Network.store_eq hplt]
    refine ⟨_, rfl, ?_, ?_⟩
    · intro q m
      by_cases hq : q = p
      · subst hq
        simp [(h.slots q n).2 hplace, eq_comm]
      rw [update_of_ne hq]
      apply Iff.intro _ And.left
      intro hm
      apply And.intro hm
      intro hmn
      rw [hmn, h.slots q n, hplace] at hm
      exact hq (by have := (Place.port.inj hm).2; omega)
    rw [hplace]
    rfl
  | false =>
    obtain ⟨hb, hfree⟩ := hok hc
    rw [Node.place_of_bound hipn hc hb] at hplace
    refine ⟨w.connport, ?_, ?_, ?_⟩
    · by_cases hpos : 0 ≤ node.portno
      · obtain ⟨hlt, hnone⟩ := hfree hpos
        obtain ⟨p, hp⟩ := Int.eq_ofNat_of_zero_le hpos
        have hplt : p < w.maxports := by omega
        rw [hp, Int.toNat_natCast] at hnone
        rw [if_pos hpos, hp, Network.store_eq hplt, ← hnone, update_eq_self]
      · rw [if_neg hpos]
    · intro p m
      apply Iff.intro _ And.left
      intro hm
      apply And.intro hm
      intro hmn
      rw [hmn, h.slots p n, hplace] at hm
      exact Place.noConfusion hm
    rw [hplace]
    rfl

def Network.without (w : Network) (n : Nat) (connport : Nat → Option Nat) : Network :=
  { w.listDel n with connport := connport, refcnt := w.refcnt - 1 }

lemma ipnTerminateNode_eq (hipn : node.ipn = some k) (hw : s.nets k = some w) {connport : Nat → Option Nat}
    (hstore : (if 0 ≤ node.portno then w.store node.portno none else some w) = some { w with connport := connport }) :
    ipnTerminateNode s n node true =
      let s := s.setNode n { node with ipn := none, shutdown := SHUTDOWN_XMASK, pbp := none }
      if w.refcnt - 1 = 0 ∧ !ipnIsPersistentChrdev w then (0, s.freeNet k)
      else (0, s.setNet k (w.without n connport)) := by
  simp only [ipnTerminateNode, hipn, State.net_eq hw, hstore]
  rfl

/-- What is left when the node of an open file is released: its slots are cleared, and with the last node
the network goes. -/
lemma ipnNodeRelease_cases (h : NetOk s.place k w) (hn : s.nodes n = some node) (hipn : node.ipn = some k)
    (hw : s.nets k = some w) (hok : ReleaseOk s n node) :
    ∃ connport, (∀ p m, connport p = some m ↔ w.connport p = some m ∧ m ≠ n) ∧ (s.place n).CountsAt k ∧
      (ipnNodeRelease s n node true true = (0, (s.setNet k (w.without n connport)).freeNode n) ∨
        w.refcnt = 1 ∧ ipnIsPersistentChrdev w = false ∧
          ipnNodeRelease s n node true true = (0, (s.freeNet k).freeNode n)) := by
  obtain ⟨connport, hstore, hslots, hcounts⟩ := release_store h hn hipn (hok k w hipn hw).1
  refine ⟨connport, hslots, hcounts, ?_⟩
  rw [ipnNodeRelease, if_neg (by simp), ipnTerminateNode_eq hipn hw hstore]
  by_cases hlast : w.refcnt - 1 = 0 ∧ (!ipnIsPersistentChrdev w) = true
  · right
    refine ⟨by omega, by simpa using hlast.2, ?_⟩
    dsimp only
    rw [if_pos hlast]
    simp [State.freeNode, State.freeNet, State.setNode]
  left
  dsimp only
  rw [if_neg hlast]
  simp [State.freeNode, State.setNet, State.setNode]

lemma ipnNodeRelease_interrupted (hlive : ∀ k, node.ipn = some k → s.nets k ≠ none) {lock netLock : Bool}
    (hlock : ∀ k, node.ipn = some k → lock = false ∨ netLock = false) : ipnNodeRelease s n node lock netLock =
    (-ERESTARTSYS, s) ∨ node.ipn = none ∧ ipnNodeRelease s n node lock netLock = (0, s.freeNode n) := by
  cases lock with
  | false => exact .inl rfl
  | true =>
    rw [ipnNodeRelease, if_neg (by simp)]
    cases hipn : node.ipn with
    | none =>
      right
      simp [ipnTerminateNode, hipn, State.freeNode_setNode]
    | some k =>
      obtain ⟨w, hw⟩ := ne_none_iff_exists'.1 (hlive k hipn)
      have hnet : netLock = false := (hlock k hipn).resolve_left (by simp)
      left
      simp [ipnTerminateNode, hipn, State.net_eq hw, hnet, ERESTARTSYS]

lemma Node.place_close (node : Node) : ({ node with closed := true } : Node).place = node.place ∨
    ({ node with closed := true } : Node).place = .away ∧ ∀ k, ¬node.place.CountsAt k := by
  have hconn : ({ node with closed := true } : Node).connected = node.connected := rfl
  unfold Node.place
  rw [hconn]
  cases node.ipn with
  | none => exact .inl rfl
  | some k =>
    cases node.connected <;> cases node.bound <;> cases node.closed <;> simp [Place.CountsAt]

lemma Inv.close (h : Inv s) (hn : s.nodes n = some node) : Inv (s.setNode n { node with closed := true }) := by
  have hfresh : ({ node with closed := true } : Node).Fresh := fun hopen => absurd hopen (by simp)
  have hplace := State.place_eq hn
  cases Node.place_close node with
  | inl hsame => exact h.setNode_same hfresh (hsame.trans hplace.symm)
  | inr haway =>
    apply h.setNode hfresh
    · intro k q hq
      rw [haway.1, hplace]
      constructor
      · intro heq
        rw [← heq] at hq
        exact hq.elim
      intro heq
      rw [← heq] at hq
      exact absurd hq (haway.2 k)
    intro k hk
    rw [haway.1] at hk
    exact hk.elim

def Released (n : Nat) (s s' : State) : Prop := Inv s' ∧ ∀ j p, s'.slot j p ≠ s.slot j p → s.slot j p = some n

lemma released_of_nets {s' : State} (h : Inv s') (hnets : s'.nets = s.nets) : Released n s s' := by
  apply And.intro h
  intro j p hne
  rw [State.slot, hnets] at hne
  exact absurd rfl hne

section

variable (h : Inv s) (hw : s.nets k = some w) (hold : ∀ k', (s.place n).Refers k' → k' = k)
  (hcounts : (s.place n).CountsAt k)

include h hw hold hcounts

lemma released_leave {connport : Nat → Option Nat}
    (hslots : ∀ p m, connport p = some m ↔ w.connport p = some m ∧ m ≠ n) :
    Released n s ((s.setNet k (w.without n connport)).freeNode n) := by
  apply And.intro (h.leave hold ((h.net k w hw).leave hcounts hslots))
  intro j p hne
  by_cases hj : j = k
  · subst hj
    have hslot : s.slot j p = w.connport p := by simp [State.slot, hw]
    have hslot' : ((s.setNet j (w.without n connport)).freeNode n).slot j p = connport p := by
      simp [State.slot, Network.without]
    rw [hslot, hslot'] at hne
    rw [hslot]
    cases hm : w.connport p with
    | none =>
      cases hm' : connport p with
      | none => exact absurd (hm'.trans hm.symm) hne
      | some m' => exact absurd (hm.symm.trans ((hslots p m').1 hm').1) (some_ne_none m').symm
    | some m =>
      by_cases hmn : m = n
      · rw [hmn]
      · exact absurd (((hslots p m).2 ⟨hm, hmn⟩).trans hm.symm) hne
  · exact absurd (by simp [State.slot, hj]) hne

lemma released_last (hone : w.refcnt = 1)
    (hstray : ∀ m node', m ≠ n → s.nodes m = some node' → node'.closed = false → node'.ipn ≠ some k) :
    Released n s ((s.freeNet k).freeNode n) := by
  have hnet := h.net k w hw
  have hsole : ∀ m, (s.place m).CountsAt k → m = n := fun m hm => hnet.sole hone hcounts hm
  constructor
  · apply h.leave_last hold
    intro m hmn hm
    cases hq : s.place m with
    | away =>
      rw [hq] at hm
      exact hm
    | waiting | port =>
      rw [hq] at hm
      exact hmn (hsole m (by rw [hq]; exact hm))
    | stray k' =>
      rw [hq] at hm
      cases hnode : s.nodes m with
      | none =>
        rw [State.place, hnode] at hq
        exact Place.noConfusion hq
      | some node' =>
        have hplace := (State.place_eq hnode).symm.trans hq
        have hipn : node'.ipn = some k := by
          apply Node.ipn_of_refers
          rw [hplace]
          exact hm
        apply hstray m node' hmn hnode _ hipn
        simp only [Node.place, hipn] at hplace
        split_ifs at hplace with _ _ hclosed
        exact Bool.eq_false_iff.2 hclosed
  intro j p hne
  by_cases hj : j = k
  · subst hj
    have hslot : s.slot j p = w.connport p := by simp [State.slot, hw]
    have hslot' : ((s.freeNet j).freeNode n).slot j p = none := by simp [State.slot]
    rw [hslot, hslot'] at hne
    rw [hslot]
    obtain ⟨m, hm⟩ := ne_none_iff_exists'.1 hne.symm
    rw [hm, hsole m (by rw [(hnet.slots p m).1 hm]; rfl)]
  · exact absurd (by simp [State.slot, hj]) hne

end

lemma ipnRelease_of_zero {s' : State}
    (h : ipnNodeRelease s n node lock netLock = (0, s')) : ipnRelease s n node lock netLock = (0, s') := by
  unfold ipnRelease
  rw [h]
  rfl

lemma ipnRelease_right (h : Inv s) (hn : s.nodes n = some node) (hopen : node.closed = false)
    (hok : lock = true → netLock = true → ReleaseOk s n node) : Released n s (ipnRelease s n node lock netLock).2 := by
  have hlive : ∀ k, node.ipn = some k → s.nets k ≠ none := by
    intro k hipn
    obtain ⟨w, hw⟩ := h.net_of_open hn hopen hipn
    rw [hw]
    exact some_ne_none w
  by_cases hlock : ∀ k, node.ipn = some k → lock = false ∨ netLock = false
  · cases @ipnNodeRelease_interrupted s n node hlive lock netLock hlock with
    | inl hstays =>
      have hrelease : ipnRelease s n node lock netLock =
          (-ERESTARTSYS, s.setNode n { node with closed := true }) := by
        unfold ipnRelease
        rw [hstays]
        rfl
      rw [hrelease]
      exact released_of_nets (h.close hn) rfl
    | inr hgoes =>
      rw [ipnRelease_of_zero hgoes.2]
      exact released_of_nets (h.freeNode ((State.place_eq hn).trans (Node.place_of_none hgoes.1))) rfl
  obtain ⟨k, hk⟩ := not_forall.1 hlock
  obtain ⟨hipn, hlocks⟩ := Classical.not_imp.1 hk
  obtain ⟨hl, hnl⟩ : lock = true ∧ netLock = true := by simpa using hlocks
  have hok := hok hl hnl
  rw [hl, hnl]
  obtain ⟨w, hw⟩ := h.net_of_open hn hopen hipn
  have hold : ∀ k', (s.place n).Refers k' → k' = k := fun k' hk' => State.refers_eq hn hipn hk'
  obtain ⟨connport, hslots, hcounts, hcases⟩ := ipnNodeRelease_cases (h.net k w hw) hn hipn hw hok
  cases hcases with
  | inl hstays =>
    rw [ipnRelease_of_zero hstays]
    exact released_leave h hw hold hcounts hslots
  | inr hlast =>
    obtain ⟨hone, hpersistent, hgoes⟩ := hlast
    rw [ipnRelease_of_zero hgoes]
    exact released_last h hw hold hcounts hone ((hok k w hipn hw).2 hone hpersistent)

end

/-! ## The other calls -/

variable {alloc : Bool} {val : Int}

section

variable {s : State} {n k : Nat} {node : Node} {w : Network}

lemma ipnCreate_inv (h : Inv s) (hn : s.nodes n = none) (protocol : Int) (registered : Bool) :
    Inv (ipnCreate s n protocol registered).2 := by
  have haway : s.place n = .away := by rw [State.place, hn]
  unfold ipnCreate
  generalize (if 0 < protocol then protocol - 1 else IPN_BROADCAST - 1) = protocol
  dsimp only
  split_ifs
  · exact h
  apply h.setNode_same
  · exact fun _ _ => ⟨rfl, rfl⟩
  rw [haway]
  rfl

lemma ipnShutdown_inv (h : Inv s) (hn : s.nodes n = some node) (hopen : node.closed = false) (mode : Int)
    (netLock : Bool) : Inv (ipnShutdown s n node mode netLock).2 := by
  have hset : ∀ sh, Inv (s.setNode n { node with shutdown := sh }) :=
    fun sh => h.setNode_same (h.fresh n node hn) (State.place_eq hn).symm
  unfold ipnShutdown
  cases hipn : node.ipn with
  | none =>
    have := hset (node.shutdown ||| (BitVec.ofInt 8 (mode + 1) &&& (RCV_SHUTDOWN ||| SEND_SHUTDOWN)))
    rw [hipn] at this
    exact this
  | some k =>
    obtain ⟨w, hw⟩ := h.net_of_open hn hopen hipn
    simp only [State.net_eq hw]
    cases netLock with
    | false => exact h
    | true =>
      have := hset (node.shutdown ||| (BitVec.ofInt 8 (mode + 1) &&& (RCV_SHUTDOWN ||| SEND_SHUTDOWN)))
      rw [hipn] at this
      exact this

lemma netOk_chrdev (h : NetOk place k w) (chrdev : Option Bool) :
    NetOk place k { w with chrdev := chrdev } :=
  ⟨h.conn, h.wait, h.connNodup, h.waitNodup, h.slots, h.portLt, h.count⟩

lemma Inv.place_of_unconnected (hn : s.nodes n = some node) (hipn : node.ipn = some k)
    (hsock : node.sock = some .unconnected) (hb : node.bound = true) : s.place n = .waiting k := by
  have hc : node.connected = false := by simp [Node.connected, hsock]
  exact (State.place_eq hn).trans (Node.place_of_bound hipn hc hb)

lemma ipnIoctl_inv (h : Inv s) (hn : s.nodes n = some node) (hopen : node.closed = false)
    {req : Ioctl} (hok : ∀ activate, req = .net (.connNetdev true true true true activate) → activate = 0 →
      node.sock = some .unconnected → node.ipn.isSome → node.bound = true) : Inv (ipnIoctl s n node req).2 := by
  have hcase := ipnIoctl_case s n node req
  generalize (ipnIoctl s n node req).2 = s' at hcase
  have hfresh : node.ipn ≠ none → ∀ netdev sock portno,
      ({ node with netdev := netdev, sock := sock, portno := portno } : Node).Fresh :=
    fun hipn _ _ _ _ hnone => absurd hnone hipn
  have hplace : node.sock = some .unconnected → ∀ portno,
      ({ node with netdev := false, portno := portno } : Node).place = s.place n := by
    intro hsock portno
    rw [State.place_eq hn]
    simp [Node.place, Node.connected, hsock]
  cases hcase with
  | same => exact h
  | wild k hipn hw =>
    obtain ⟨w, hw'⟩ := h.net_of_open hn hopen hipn
    cases hw.symm.trans hw'
  | joined k w hipn hw =>
    have hnet : ∀ k', some k = some k' → s.nets k' ≠ none := by
      rintro _ ⟨⟩ hnone
      cases hw.symm.trans hnone
    have hbind := ipnNodeBind_inv h ((State.place_eq hn).trans (Node.place_of_none hipn)) hipn
      (h.fresh n node hn hopen hipn).1 hnet
    rwa [ipnNodeBind_eq hw hipn] at hbind
  | chrdev k w chrdev hipn hw => exact h.setNet (netOk_chrdev (h.net k w hw) chrdev)
  | undone k w hipn hw hsock => exact h.setNode_same (h.fresh n node hn) (State.place_eq hn).symm
  | refused k w hipn hw hsock =>
    have hold : ∀ k', (s.place n).Refers k' → k' = k := fun k' hk => State.refers_eq hn hipn hk
    apply h.setBoth (hfresh (by rw [hipn]; exact some_ne_none k) false _ (-1)) hold
    · intro k' hk
      rw [hplace hsock (-1)] at hk
      exact hold k' hk
    rw [hplace hsock (-1), update_eq_self]
    exact h.net k w hw
  | attached k w p hreq hreset hipn hw hterm hsock hport hlt hfree =>
    have hb := hok 0 hreq rfl hsock (by rw [hipn]; rfl)
    have hnew : ({ node with sock := some .connected, netdev := true, portno := (p : Int) } : Node).place = .port k p :=
      Node.place_of_connected hipn rfl
    apply h.setBoth (hfresh (by rw [hipn]; exact some_ne_none k) true _ p)
    · exact fun k' hk => State.refers_eq hn hipn hk
    · intro k' hk
      rw [hnew] at hk
      exact hk.symm
    rw [hnew]
    exact (h.net k w hw).enter_waiting (Inv.place_of_unconnected hn hipn hsock hb) hlt hfree

/-! ### Options -/

lemma ipnNetresize_inv (h : Inv s) (hw : s.nets k = some w) (hpos : 0 < val)
    (hok : netLock = true → alloc = true → 65536 ≤ val → ∀ p m, w.connport p = some m → p < u16 val) :
    Inv (ipnNetresize s k val netLock alloc).2 := by
  have hnet := h.net k w hw
  simp only [ipnNetresize, State.net_eq hw]
  split_ifs with hnetLock hsame hused halloc hshrink
  · exact h
  · exact h
  · exact h
  · exact h
  all_goals
    have hlt : ∀ p m, w.connport p = some m → p < u16 val := by
      intro p m hm
      by_cases hbig : 65536 ≤ val
      · exact hok (by simpa using hnetLock) (by simpa using halloc) hbig p m hm
      have hp := hnet.slot_lt hm
      have hmax : u16 val = val.toNat := by
        unfold u16
        omega
      rw [hmax]
      by_contra hge
      have hval : val < w.maxports := by omega
      exact hused ⟨hval, p, hp, by omega, by simp [hm]⟩
    apply h.setNet (hnet.resize _ hlt)
    intro p
    split_ifs with hp
    · rfl
    cases hm : w.connport p with
    | none => rfl
    | some m =>
      have hp' := hlt p m hm
      have hp'' := hnet.slot_lt hm
      unfold u16 at hp'
      omega

/-- What an option of a node changes: its parameters with its bits for out-of-band messages, the number of its
port, or the table of its network. -/
lemma ipnSockoptVal_cases (s : State) (n : Nat) (node : Node) (optname : BitVec 32) (val : Int)
    (netLock alloc : Bool) :
    (ipnSockoptVal s n node optname val netLock alloc).2 = s ∨
      (∃ pbp sh, (sh = node.shutdown ∨ sh = node.shutdown &&& ~~~RCV_SHUTDOWN_NO_OOB ∨
          sh = node.shutdown ||| RCV_SHUTDOWN_NO_OOB) ∧
        (ipnSockoptVal s n node optname val netLock alloc).2 = s.setNode n { node with pbp := pbp, shutdown := sh }) ∨
      node.sock = some .unconnected ∧
        (ipnSockoptVal s n node optname val netLock alloc).2 = s.setNode n { node with portno := val } ∨
      optname = IPN_SO_CHANGE_NUMNODES ∧ node.bound = true ∧ 0 < val ∧
        (node.ipn = none ∧ (ipnSockoptVal s n node optname val netLock alloc).2 = s.wild ∨
          ∃ k, node.ipn = some k ∧
            (ipnSockoptVal s n node optname val netLock alloc).2 = (ipnNetresize s k val netLock alloc).2) := by
  generalize hr : (ipnSockoptVal s n node optname val netLock alloc).2 = r
  unfold ipnSockoptVal at hr
  split at hr
  · split at hr
    · next hsock => exact .inr (.inr (.inl ⟨hsock, hr.symm⟩))
    · exact .inl hr.symm
  split at hr
  · next hsize =>
    split at hr
    · next hbound =>
      split at hr
      · exact .inl hr.symm
      next hneg =>
      refine .inr (.inr (.inr ⟨hsize, hbound, Int.not_le.mp hneg, ?_⟩))
      cases hipn : node.ipn with
      | none =>
        rw [hipn] at hr
        exact .inl ⟨rfl, hr.symm⟩
      | some k =>
        rw [hipn] at hr
        exact .inr ⟨k, rfl, hr.symm⟩
    · exact .inl hr.symm
  -- the other options change the node only
  refine .inr (.inl ?_)
  split at hr
  · refine ⟨node.pbp, _, .inr ?_, hr.symm⟩
    split
    · exact .inl rfl
    · exact .inr rfl
  split at hr
  · split at hr
    · exact ⟨_, _, .inl rfl, hr.symm⟩
    · exact ⟨_, _, .inl rfl, hr.symm⟩
  split at hr
  · split at hr
    · exact ⟨_, _, .inl rfl, hr.symm⟩
    · exact ⟨_, _, .inl rfl, hr.symm⟩
  split at hr
  · split at hr
    · exact ⟨_, _, .inl rfl, hr.symm⟩
    · exact ⟨_, _, .inl rfl, hr.symm⟩
  split at hr
  · exact ⟨_, _, .inl rfl, hr.symm⟩
  split at hr
  · exact ⟨_, _, .inl rfl, hr.symm⟩
  · exact ⟨_, _, .inl rfl, hr.symm⟩

lemma ipnSockoptVal_inv (h : Inv s) (hn : s.nodes n = some node) (hopen : node.closed = false)
    {pbp : Option PreBindParms} {optname : BitVec 32}
    (hok : optname = IPN_SO_CHANGE_NUMNODES → netLock = true → alloc = true → ResizeOk s node val) :
    Inv (ipnSockoptVal s n { node with pbp := pbp } optname val netLock alloc).2 := by
  have hplace := State.place_eq hn
  have hfresh := h.fresh n node hn
  rcases ipnSockoptVal_cases s n { node with pbp := pbp } optname val netLock alloc with
    heq | ⟨pbp', sh, -, heq⟩ | ⟨hsock, heq⟩ | ⟨hsize, hbound, hpos, hnet⟩
  · rw [heq]
    exact h
  · rw [heq]
    exact h.setNode_same hfresh hplace.symm
  · have hsock : node.sock = some .unconnected := hsock
    rw [heq]
    apply h.setNode_same
    · exact hfresh
    rw [hplace]
    simp [Node.place, Node.connected, hsock]
  · rcases hnet with ⟨hipn, -⟩ | ⟨k, hipn, heq⟩
    · have hunbound := (hfresh hopen hipn).2
      exact absurd (hbound.symm.trans hunbound) (by simp)
    obtain ⟨w, hw⟩ := h.net_of_open hn hopen hipn
    rw [heq]
    apply ipnNetresize_inv h hw hpos
    intro hnetLock halloc hbig
    exact hok hsize hnetLock halloc k w hipn hw hbig

lemma ipnSetsockopt_cases (s : State) (n : Nat) (node : Node) (level : Int) (optname : BitVec 32) (optlen : Nat)
    (val : Int) (netLock pbpAlloc alloc : Bool) :
    (ipnSetsockopt s n node level optname optlen val netLock pbpAlloc alloc).2 = s ∨
      (∃ k, node.ipn = some k ∧ s.nets k = none ∧
        (ipnSetsockopt s n node level optname optlen val netLock pbpAlloc alloc).2 = s.wild) ∨
      level = 0 ∧ ∃ pbp, (ipnSetsockopt s n node level optname optlen val netLock pbpAlloc alloc).2 =
        (ipnSockoptVal s n { node with pbp := pbp } optname val netLock alloc).2 := by
  generalize hr : (ipnSetsockopt s n node level optname optlen val netLock pbpAlloc alloc).2 = r
  unfold ipnSetsockopt at hr
  split at hr
  · exact .inl hr.symm
  split at hr
  · exact .inl hr.symm
  next hproto =>
  split at hr
  · cases hipn : node.ipn with
    | none =>
      rw [hipn] at hr
      exact .inl hr.symm
    | some k =>
      rw [hipn] at hr
      unfold State.net at hr
      cases hw : s.nets k with
      | none =>
        simp only [hw] at hr
        exact .inr (.inl ⟨k, rfl, hw, hr.symm⟩)
      | some w =>
        simp only [hw] at hr
        split at hr
        · exact .inl hr.symm
        · exact .inl hr.symm
  next hlevel =>
  split at hr
  · split at hr
    · exact .inl hr.symm
    · exact .inl hr.symm
  split at hr
  · exact .inl hr.symm
  split at hr
  · exact .inl hr.symm
  have hzero : level = 0 := by omega
  split at hr
  · split at hr
    · exact .inl hr.symm
    · exact .inr (.inr ⟨hzero, _, hr.symm⟩)
  · exact .inr (.inr ⟨hzero, node.pbp, hr.symm⟩)

lemma ipnSetsockopt_inv (h : Inv s) (hn : s.nodes n = some node) (hopen : node.closed = false)
    {level : Int} {optname : BitVec 32} {optlen : Nat} {pbpAlloc : Bool}
    (hok : level = 0 → optname = IPN_SO_CHANGE_NUMNODES → netLock = true → alloc = true → ResizeOk s node val) :
    Inv (ipnSetsockopt s n node level optname optlen val netLock pbpAlloc alloc).2 := by
  rcases ipnSetsockopt_cases s n node level optname optlen val netLock pbpAlloc alloc with
    heq | ⟨k, hipn, hnone, -⟩ | ⟨hlevel, pbp, heq⟩
  · rw [heq]
    exact h
  · obtain ⟨w, hw⟩ := h.net_of_open hn hopen hipn
    exact absurd (hw.symm.trans hnone) (some_ne_none w)
  rw [heq]
  exact ipnSockoptVal_inv h hn hopen (hok hlevel)

/-! ### Devices -/

lemma ipnNodeGiveUp_inv (h : Inv s) (hn : s.nodes n = none) (hsock : node.sock = none) (hport : node.portno < 0)
    (hb : node.bound = false) {err : Int}
    (hlive : ∀ k, node.ipn = some k → s.nets k ≠ none ∧ (lock = false ∨ netLock = false)) :
    Inv (ipnNodeGiveUp s n node lock netLock err).2 := by
  have haway : ({ node with closed := true } : Node).place = .away := by
    have hc : ({ node with closed := true } : Node).connected = false := by
      simp [Node.connected, hsock, hport]
    unfold Node.place
    rw [hc]
    cases node.ipn <;> simp [hb]
  have hclosed : Inv (s.setNode n { node with closed := true }) := by
    apply h.setNode_same
    · intro hopen
      exact absurd hopen (by simp)
    · rw [haway, State.place, hn]
  unfold ipnNodeGiveUp
  have hcases := @ipnNodeRelease_interrupted (s.setNode n { node with closed := true }) n { node with closed := true }
    (fun k hk => (hlive k hk).1) lock netLock (fun k hk => (hlive k hk).2)
  cases hcases with
  | inl hstays =>
    simp only [hstays]
    exact hclosed
  | inr hgoes =>
    simp only [hgoes.2]
    apply hclosed.freeNode
    rw [State.place_setNode, update_self, haway]

lemma ipnNodeCreateConnect_inv (h : Inv s) (hn : s.nodes n = none) (hw : s.nets k = some w) {locks : OpenLocks}
    (hok : locks.lock = true → locks.netLock = false → locks.releaseLock = false ∨ locks.releaseNetLock = false) :
    Inv (ipnNodeCreateConnect s n k locks).2 ∧
      ((ipnNodeCreateConnect s n k locks).1 = 0 ∧
          (∃ node, (ipnNodeCreateConnect s n k locks).2.nodes n = some node) ∨
        (ipnNodeCreateConnect s n k locks).1 ≠ 0 ∧
          (locks.lock = false ∨ locks.netLock = false ∨ ipnNewport w < 0)) := by
  have haway : s.place n = .away := by rw [State.place, hn]
  have hnet := h.net k w hw
  have hgiveUp : ∀ ipnn protocol err,
      (∀ k, ipnn = some k → s.nets k ≠ none ∧ (locks.releaseLock = false ∨ locks.releaseNetLock = false)) →
      Inv (ipnNodeGiveUp s n { ipnNodeCreate with ipn := ipnn, protocol := protocol } locks.releaseLock
        locks.releaseNetLock err).2 :=
    fun _ _ _ hlive => ipnNodeGiveUp_inv h hn rfl (by simp [ipnNodeCreate, IPN_PORTNO_ANY]) rfl hlive
  have hnone : ∀ k, (none : Option Nat) = some k →
      s.nets k ≠ none ∧ (locks.releaseLock = false ∨ locks.releaseNetLock = false) :=
    fun k hk => absurd hk (some_ne_none k).symm
  unfold ipnNodeCreateConnect
  cases hlock : locks.lock with
  | false => exact ⟨hgiveUp none 0 _ hnone, .inr ⟨by simp [ipnNodeGiveUp, ERESTARTSYS], .inl rfl⟩⟩
  | true =>
    dsimp only
    rw [if_neg (by simp), State.net_eq hw]
    cases hnetLock : locks.netLock with
    | false =>
      have hlive : ∀ k', some k = some k' →
          s.nets k' ≠ none ∧ (locks.releaseLock = false ∨ locks.releaseNetLock = false) := by
        intro k' hk
        rw [← some.inj hk, hw]
        exact ⟨some_ne_none w, hok hlock hnetLock⟩
      exact ⟨hgiveUp (some k) w.protocol _ hlive, .inr ⟨by simp [ipnNodeGiveUp, ERESTARTSYS], .inr (.inl rfl)⟩⟩
    | true =>
      rw [if_neg (by simp)]
      cases ipnNewport_cases w with
      | inl hfull =>
        rw [hfull, if_neg (by omega)]
        exact ⟨hgiveUp none w.protocol _ hnone,
          .inr ⟨by simp [ipnNodeGiveUp, EADDRNOTAVAIL], .inr (.inr (by decide))⟩⟩
      | inr hport =>
        obtain ⟨p, hp, hlt, hfree⟩ := hport
        have hrange : (0 : Int) ≤ p ∧ (p : Int) < w.maxports := by omega
        have hold : ¬(s.place n).CountsAt k := by
          rw [haway]
          exact not_false
        have hnew : ({ ipnNodeCreate with ipn := some k, protocol := w.protocol, portno := (p : Int) } : Node).place =
            .port k p :=
          Node.place_of_connected rfl (by simp [Node.connected, ipnNodeCreate])
        rw [hp, if_pos hrange, Network.store_eq hlt]
        refine ⟨?_, .inl ⟨rfl, _, update_self n _ _⟩⟩
        apply h.setBoth
        · intro _ hnone
          exact absurd hnone (some_ne_none k)
        · intro k' hk
          rw [haway] at hk
          exact hk.elim
        · intro k' hk
          rw [hnew] at hk
          exact hk.symm
        · rw [hnew]
          have hentered := hnet.enter hold hlt hfree
          rw [← hnet.listDel_eq hold] at hentered
          exact hentered

lemma ipnChrdevOpen_inv (h : Inv s) (hn : s.nodes n = none) (hw : s.nets k = some w) {modeRead modeWrite : Bool}
    {mayRead mayWrite : Int} {locks : OpenLocks} {stale : Bool}
    (hok : (modeRead = false ∨ mayRead = -EACCES ∨ mayRead = -EROFS) ∧ (modeWrite = false ∨ mayWrite = -EACCES) ∨
      alloc = true ∧ OpenOk s k locks stale) :
    Inv (ipnChrdevOpen s n k modeRead modeWrite mayRead mayWrite alloc locks stale).2 := by
  unfold ipnChrdevOpen
  dsimp only
  by_cases hdenied : ((!modeRead || mayRead == -EACCES || mayRead == -EROFS) && (!modeWrite || mayWrite == -EACCES)) = true
  · rw [if_pos hdenied]
    exact h
  obtain ⟨halloc, hopen⟩ : alloc = true ∧ OpenOk s k locks stale := by
    apply hok.resolve_left
    intro hboth
    apply hdenied
    simpa [or_assoc] using hboth
  obtain ⟨hstale, hlocks⟩ := hopen w hw
  rw [if_neg hdenied, if_neg (by simp [halloc])]
  obtain ⟨hinv, hcases⟩ := ipnNodeCreateConnect_inv h hn hw hlocks
  cases hcases with
  | inl hdone =>
    obtain ⟨hzero, node, hnode⟩ := hdone
    rw [if_pos hzero, hnode]
    exact hinv.setNode_same (hinv.fresh n node hnode) (State.place_eq hnode).symm
  | inr hfailed =>
    rw [if_neg hfailed.1, hstale hfailed.2]
    exact hinv

end

/-! ## Every run -/

lemma State.onNode_eq {s : State} {n : Nat} {node : Node} (hn : s.nodes n = some node) (f : Node → Int × State) :
    s.onNode n f = (f node).2 := by
  rw [State.onNode, hn]

lemma ipnStep_right {s : State} {e : IpnEvent} (h : Inv s) (hlegal : e.Legal s) (hok : StepOk s e) :
    Inv (ipnStep s e) ∧ ReleaseRight s e := by
  cases e with
  | socket n protocol registered => exact ⟨ipnCreate_inv h hlegal protocol registered, trivial⟩
  | bind n lock registered path =>
    obtain ⟨⟨node, hn, _⟩, hnew⟩ := hlegal
    refine ⟨?_, trivial⟩
    simp only [ipnStep, State.onNode_eq hn]
    apply ipnBind_inv h hn
    intro k hpath
    rw [hpath] at hnew
    exact hnew
  | connect n lock netLock path =>
    obtain ⟨node, hn, hopen, _⟩ := hlegal
    refine ⟨?_, trivial⟩
    simp only [ipnStep, State.onNode_eq hn]
    exact ipnConnect_inv h hn hopen lock netLock path
  | ioctl n req =>
    obtain ⟨node, hn, hopen, _⟩ := hlegal
    refine ⟨?_, trivial⟩
    simp only [ipnStep, State.onNode_eq hn]
    apply ipnIoctl_inv h hn hopen
    intro activate hreq hact hsock hipn
    rw [hreq] at hok
    exact hok node hn hsock hipn hact
  | chrdevOpen n k modeRead modeWrite mayRead mayWrite alloc locks stale =>
    obtain ⟨hn, w, hw, _⟩ := hlegal
    exact ⟨ipnChrdevOpen_inv h hn hw hok, trivial⟩
  | setsockopt n level optname optlen val netLock pbpAlloc alloc =>
    obtain ⟨node, hn, hopen, _⟩ := hlegal
    refine ⟨?_, trivial⟩
    simp only [ipnStep, State.onNode_eq hn]
    apply ipnSetsockopt_inv h hn hopen
    intro hlevel hoptname hnetLock halloc
    exact hok hlevel hoptname hnetLock halloc node hn
  | shutdown n mode netLock =>
    obtain ⟨node, hn, hopen, _⟩ := hlegal
    refine ⟨?_, trivial⟩
    simp only [ipnStep, State.onNode_eq hn]
    exact ipnShutdown_inv h hn hopen mode netLock
  | release n lock netLock =>
    obtain ⟨node, hn, hopen⟩ := hlegal
    have hreleased : Released n s (ipnStep s (.release n lock netLock)) := by
      simp only [ipnStep, State.onNode_eq hn]
      apply ipnRelease_right h hn hopen
      rintro rfl rfl
      exact hok node hn
    exact hreleased

lemma inv_ipnInit : Inv ipnInit where
  fault := rfl
  net _ w hw := absurd hw (some_ne_none w).symm
  live _ _ hk := hk.elim
  fresh _ node hn := absurd hn (some_ne_none node).symm

/-- The table of the ports, the queue of the connected nodes and the numbers in the nodes say the same at any
time, every index is below `maxports`, and a release leaves the slots of other nodes alone, as long as
the calls are of the kinds above. -/
theorem ports_right (es : List IpnEvent) (hes : ipnMachine.Along ipnMachine.enabled ipnInit es)
    (hok : ipnMachine.Along StepOk ipnInit es) :
    ipnMachine.Always PortsRight ipnInit es ∧ ipnMachine.Along ReleaseRight ipnInit es := by
  exact Machine.Along.always_and_along Inv (fun s hs => portsRight_of_inv hs)
    (fun s e hs he => ipnStep_right hs he.1.2 he.2) inv_ipnInit (hes.and hok)

def secondSocketRun : List IpnEvent :=
  [.socket 0 1 true, .bind 0 true true (.created 0), .connect 0 true true (.failed 0), .socket 1 1 true,
    .connect 1 true true (.found 0 0 true 0), .release 1 true true]

theorem ports_right_second : ipnMachine.Always PortsRight ipnInit secondSocketRun ∧
    ipnMachine.Along ReleaseRight ipnInit secondSocketRun := by
  apply ports_right
  · exact ⟨⟨rfl, rfl⟩, ⟨rfl, ⟨_, rfl, rfl, rfl⟩, rfl⟩, ⟨rfl, _, rfl, rfl, rfl⟩, ⟨rfl, rfl⟩,
      ⟨rfl, _, rfl, rfl, rfl⟩, ⟨rfl, _, rfl, rfl⟩, trivial⟩
  refine ⟨trivial, trivial, trivial, trivial, trivial, ?_, trivial⟩
  intro node hn k w hipn hw
  have hnode := some.inj hn
  subst hnode
  have hk := some.inj hipn
  subst hk
  have hnet := some.inj hw
  subst hnet
  constructor
  · intro hunconnected
    exact absurd hunconnected (by decide)
  intro hone
  exact absurd hone (by decide)

/-- Two sockets on one network, the first connected, the second only bound; the second asks for port 0. -/
def stolenPortRun : List IpnEvent :=
  [.socket 0 1 true, .bind 0 true true (.created 0), .connect 0 true true (.failed 0), .socket 1 1 true,
    .bind 1 true true (.found 0 true 0), .setsockopt 1 0 IPN_SO_PORT 4 0 true true true, .release 1 true true]

/-- The slot of the first socket is cleared when the second is closed. -/
theorem stolen_port_cleared : ¬∀ es, ipnMachine.Along ipnMachine.enabled ipnInit es →
    ipnMachine.Always PortsRight ipnInit es ∧ ipnMachine.Along ReleaseRight ipnInit es := by
  intro h
  have hes : ipnMachine.Along ipnMachine.enabled ipnInit stolenPortRun :=
    ⟨⟨rfl, rfl⟩, ⟨rfl, ⟨_, rfl, rfl, rfl⟩, rfl⟩, ⟨rfl, _, rfl, rfl, rfl⟩, ⟨rfl, rfl⟩,
      ⟨rfl, ⟨_, rfl, rfl, rfl⟩, trivial⟩, ⟨rfl, _, rfl, rfl, rfl⟩, ⟨rfl, _, rfl, rfl⟩, trivial⟩
  have hlast : PortsRight (ipnMachine.run ipnInit stolenPortRun) := (h stolenPortRun hes).1.last
  have hnet := (hlast.2 0 _ rfl).1 0 0
  have hslot := hnet.2 ⟨mem_singleton.2 rfl, _, rfl, rfl⟩
  exact absurd hslot (by decide)

end Vde.Ipn
