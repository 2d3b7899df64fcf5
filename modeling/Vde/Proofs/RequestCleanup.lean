import Vde.Proofs.Connections

/-!
# A request that fails

`new_port_v1_v3` gives up on a request at nine places. Everywhere but after a failed `setup_ep` it has then
closed the data descriptor, removed the control descriptor and left no endpoint.
-/

namespace Vde

open List

variable (belongs : BitVec 32 → BitVec 32 → Bool)

/-- `handle_io` for a control connection, with the descriptors that are open. -/
def handleWdOpen (mem : Bool) (fd ep : Nat) (s : OpenSock) : WdRead → OpenSock
  | .error => s.removeFd fd
  | .again => s
  | .eof => if ep ≠ 0 then s.closeEp ep else s.removeFd fd
  | .request r c =>
    match r.typePort with
    | none => s.removeFd fd
    | some typePort =>
      let (ep, s) := newPortV1V3Open belongs mem fd typePort c s
      { s with sock := storeEndpoint fd (ep, s.sock) }

def openStep (s : OpenSock) : DsEvent × Bool → OpenSock
  | (.connect new a, _) => { sock := handleCtl new a s.sock, opened := new :: s.opened }
  | (.read i input, mem) =>
    let fd := (s.sock.poll.fds i).fd
    let s' := handleWdOpen belongs mem fd (s.sock.poll.privateDataAt i) s input
    if input = .eof then { s' with sock := { s'.sock with hung := s.sock.connOf fd :: s'.sock.hung } } else s'
  | (.left conn, _) => { s with sock := { s.sock with hung := conn :: s.sock.hung } }
  | (.epclose port id, _) => s.closeEpPortFd port id
  | (.poll op, _) => { s with sock := { s.sock with poll := op.apply s.sock.poll } }

def FdUnused (s : OpenSock) : DsEvent → Prop
  | .connect new _ => new ∉ s.opened
  | .read _ (.request _ c) => ∀ fdData, c.socket = some fdData → fdData ∉ s.opened
  | _ => True

def openMachine : Machine OpenSock (DsEvent × Bool) where
  enabled s e := s.sock.sw.trap = false ∧ e.1.Legal s.sock ∧ FdUnused s e.1
  step := openStep belongs

def OpenStart (s : OpenSock) : Prop := DsStart s.sock ∧ s.opened = []

def setupAnswer (mem : Bool) (fdCtl : Nat) (typePort : BitVec 32) (c : NewPortCalls) (s : DataSock) : Option Errno :=
  match portRequest typePort, c.fdData with
  | some request, some fdData => some (setupEpMem belongs mem request fdCtl fdData c.user s.sw).1
  | _, _ => none

/-- Nothing is left of the request: no data descriptor is open, the control descriptor is not polled, and the
ports have the endpoints that they had. -/
structure CleanedUp (s s' : OpenSock) (fdCtl : Nat) (c : NewPortCalls) : Prop where
  data : ∀ fdData, c.socket = some fdData → fdData ∉ s'.opened
  control : ∀ i < s'.sock.poll.nfds, (s'.sock.poll.fds i).fd ≠ fdCtl
  lists : s'.sock.eps = s.sock.eps
  ports : s'.sock.sw.eps = s.sock.sw.eps

/-- The call cleans up whenever it returns without an endpoint; a crash is no return. -/
def CleansUp (mem : Bool) (fdCtl : Nat) (typePort : BitVec 32) (c : NewPortCalls) (s : OpenSock) : Prop :=
  (newPortV1V3Open belongs mem fdCtl typePort c s).1 = none →
    (newPortV1V3Open belongs mem fdCtl typePort c s).2.sock.sw.trap = false →
      CleanedUp s (newPortV1V3Open belongs mem fdCtl typePort c s).2 fdCtl c

/-! ## The model without the open descriptors -/

section Project

lemma setupEpMem_true : setupEpMem belongs true = setupEp belongs := rfl

variable {s : OpenSock}

lemma sock_removeFd (fd : Nat) (s : OpenSock) : (s.removeFd fd).sock = s.sock.removeFd fd := by
  unfold OpenSock.removeFd
  cases hfind : findFd s.sock.poll fd with
  | none =>
    dsimp only
    rw [DataSock.removeFd, hfind]
  | some i => rfl

end Project

/-! ## The poll table -/

section Bag

variable {s : OpenSock} {fd : Nat}

lemma bag_removeFd (h : PollBag s.sock.poll) (fd : Nat) : PollBag (s.removeFd fd).sock.poll := by
  rw [sock_removeFd, DataSock.removeFd]
  split
  · exact h
  · exact pollBag_removeFd h fd

lemma bag_closeEpPortFd (h : PollBag s.sock.poll) (portno fdCtl : Int) :
    PollBag (s.closeEpPortFd portno fdCtl).sock.poll := by
  unfold OpenSock.closeEpPortFd
  split
  · next sw _ =>
    split
    · exact h
    next e _ =>
    have h' : PollBag (OpenSock.mk { s.sock with
        sw := sw, eps := s.sock.eps.eraseP (DataSock.closes portno fdCtl) } s.opened).sock.poll := h
    exact bag_removeFd (bag_removeFd h' e.fdData) e.fdCtl
  · exact h

lemma bag_closeEp (h : PollBag s.sock.poll) (addr : Nat) : PollBag (s.closeEp addr).sock.poll := by
  unfold OpenSock.closeEp
  split
  · exact h
  · exact bag_closeEpPortFd h _ _

lemma bag_newEndpoint (h : PollBag s.sock.poll) {mem : Bool} {fdCtl fdData : Nat} {request : Int} {c : NewPortCalls}
    (hfresh : (PollOp.addFd fdData s.sock.dataType c.addr c.record).Fresh s.sock.poll) :
    PollBag (newEndpointOpen belongs mem fdCtl fdData request c s).2.sock.poll := by
  have hadd : PollBag (addFd fdData s.sock.dataType c.addr c.record s.sock.poll) := pollBag_apply h hfresh
  unfold newEndpointOpen
  split
  · split
    · exact h
    dsimp only
    split
    · exact bag_closeEp hadd _
    split
    · exact bag_closeEp hadd _
    split
    · exact bag_closeEp hadd _
    · exact hadd
  · exact h

lemma NewPortCalls.Fresh.addFd {c : NewPortCalls} (hfresh : c.Fresh s.sock) {fdData : Nat}
    (hsocket : c.socket = some fdData) (type : BitVec 8) (privateData : Nat) :
    (PollOp.addFd fdData type privateData c.record).Fresh s.sock.poll :=
  ⟨hfresh.1 fdData hsocket, hfresh.2.2.2⟩

lemma bag_newPort (h : PollBag s.sock.poll) {mem : Bool} {fdCtl : Nat} {typePort : BitVec 32} {c : NewPortCalls}
    (hfresh : c.Fresh s.sock) : PollBag (newPortV1V3Open belongs mem fdCtl typePort c s).2.sock.poll := by
  unfold newPortV1V3Open
  split
  · exact bag_removeFd h _
  split
  · exact bag_removeFd h _
  split
  · exact bag_removeFd h _
  next fdData hsocket =>
  dsimp only
  split
  · exact @bag_removeFd (OpenSock.close fdData { s with opened := fdData :: s.opened }) h _
  split
  · exact @bag_removeFd (OpenSock.close fdData { s with opened := fdData :: s.opened }) h _
  exact @bag_newEndpoint belongs { s with opened := fdData :: s.opened } h _ _ _ _ _
    (hfresh.addFd hsocket _ _)

lemma bag_handleWd (h : PollBag s.sock.poll) {mem : Bool} {ep : Nat} {input : WdRead}
    (hfresh : ∀ r c, input = .request r c → c.Fresh s.sock) :
    PollBag (handleWdOpen belongs mem fd ep s input).sock.poll := by
  cases input with
  | error => exact bag_removeFd h fd
  | again => exact h
  | eof =>
    rw [handleWdOpen]
    split
    · exact bag_closeEp h ep
    · exact bag_removeFd h fd
  | request r c =>
    rw [handleWdOpen]
    split
    · exact bag_removeFd h fd
    next typePort _ =>
    have hnew := @bag_newPort belongs s h mem fd typePort c (hfresh r c rfl)
    generalize newPortV1V3Open belongs mem fd typePort c s = res at hnew
    dsimp only [storeEndpoint]
    split
    · exact hnew
    · next a _ => exact @pollBag_apply _ hnew (.setPrivateData fd a) trivial

lemma openStep_bag (h : PollBag s.sock.poll) {e : DsEvent × Bool} (he : (openMachine belongs).enabled s e) :
    PollBag (openStep belongs s e).sock.poll := by
  obtain ⟨e, mem⟩ := e
  obtain ⟨-, hlegal, -⟩ := he
  cases e with
  | connect new a =>
    have hfresh : (PollOp.addFd new s.sock.wdType 0 a).Fresh s.sock.poll := hlegal
    exact pollBag_apply h hfresh
  | read i input =>
    have hfresh : ∀ r c, input = .request r c → c.Fresh s.sock := by
      intro r c hinput
      subst hinput
      exact hlegal.2.2
    have hread := @bag_handleWd belongs s (s.sock.poll.fds i).fd h mem (s.sock.poll.privateDataAt i) input hfresh
    rw [openStep]
    dsimp only
    split
    · exact hread
    · exact hread
  | left conn => exact h
  | epclose port id => exact bag_closeEpPortFd h port id
  | poll op => exact pollBag_apply h hlegal.1

lemma reach_bag (h : (openMachine belongs).Reach OpenStart s) : PollBag s.sock.poll :=
  h.invariant (fun s => PollBag s.sock.poll) (fun _ hs => hs.1.inv.bag) (fun _ _ hs he => openStep_bag belongs hs he)

lemma polled_iff (h : PollBag s.sock.poll) : (∃ i < s.sock.poll.nfds, (s.sock.poll.fds i).fd = fd) ↔
    ∃ type privateData, HasRecord s.sock.poll fd type privateData := by
  constructor
  · rintro ⟨i, hi, rfl⟩
    have hlive := h.live _ (mem_entries.mpr ⟨i, hi, rfl⟩)
    obtain ⟨r, hr⟩ := Option.ne_none_iff_exists'.mp hlive
    exact ⟨_, _, hasRecord_at hi hr⟩
  rintro ⟨type, privateData, hrec⟩
  exact hrec.index

end Bag

/-! ## The exits -/

section Exits

variable {s : OpenSock} {fd fdCtl : Nat} {c : NewPortCalls}

lemma opened_removeFd (fd : Nat) (s : OpenSock) : (s.removeFd fd).opened ⊆ s.opened := by
  unfold OpenSock.removeFd
  split
  · exact fun _ h => h
  · exact erase_subset

lemma eps_removeFd (fd : Nat) (s : OpenSock) :
    (s.removeFd fd).sock.eps = s.sock.eps ∧ (s.removeFd fd).sock.sw = s.sock.sw := by
  rw [sock_removeFd, DataSock.removeFd]
  split <;> exact ⟨rfl, rfl⟩

lemma records_removeFd (h : PollBag s.sock.poll) {fd' privateData : Nat} {type : BitVec 8} :
    HasRecord (s.removeFd fd).sock.poll fd' type privateData ↔ fd' ≠ fd ∧
    HasRecord s.sock.poll fd' type privateData := by
  rw [← hasRecord_removeFd h, sock_removeFd, DataSock.removeFd]
  cases hfind : findFd s.sock.poll fd with
  | none => rw [removeFd, hfind]
  | some i => rfl

lemma removed_unpolled (h : PollBag s.sock.poll) (fd : Nat) :
    ∀ i < (s.removeFd fd).sock.poll.nfds, ((s.removeFd fd).sock.poll.fds i).fd ≠ fd := by
  intro i hi hfd
  obtain ⟨type, privateData, hrec⟩ := (polled_iff (bag_removeFd h fd)).mp ⟨i, hi, hfd⟩
  exact ((records_removeFd h).mp hrec).1 rfl

lemma cleanedUp_early {s₀ : OpenSock} (h : PollBag s₀.sock.poll) (hsock : s₀.sock = s.sock)
    (hdata : ∀ fdData, c.socket = some fdData → fdData ∉ s₀.opened) (fdCtl : Nat) :
    CleanedUp s (s₀.removeFd fdCtl) fdCtl c := by
  obtain ⟨heps, hsw⟩ := eps_removeFd fdCtl s₀
  refine ⟨fun fdData hfd hmem => hdata fdData hfd (opened_removeFd fdCtl s₀ hmem), removed_unpolled h fdCtl, ?_, ?_⟩
  · rw [heps, hsock]
  · rw [hsw, hsock]

variable {sw : Switch} {request : Int} {fdData : Nat}

def OpenSock.opening (s : OpenSock) (fdCtl fdData : Nat) (request : Int) (c : NewPortCalls) (sw : Switch) : OpenSock :=
  { sock := { s.sock with
      sw := sw
      eps := ⟨c.addr, allocIndex request s.sock.sw, fdCtl, fdData, s.sock.connOf fdCtl⟩ :: s.sock.eps
      poll := addFd fdData s.sock.dataType c.addr c.record s.sock.poll }
    opened := fdData :: s.opened }

lemma cleanedUp_late (h : PollBag s.sock.poll) (hfresh : c.Fresh s.sock) (hsocket : c.socket = some fdData)
    (hclosed : fdData ∉ s.opened) (hsetup : setupEp belongs request fdCtl fdData c.user s.sock.sw = (.ok, sw))
    (hrun : sw.trap = false) : CleanedUp s ((s.opening fdCtl fdData request c sw).closeEp c.addr) fdCtl c := by
  obtain ⟨hlt, hnum, hports⟩ := setupEp_ok belongs hsetup hrun
  have hfd := hfresh.addFd hsocket s.sock.dataType c.addr
  have hbag : PollBag (s.opening fdCtl fdData request c sw).sock.poll := pollBag_apply h hfd
  have hep : (s.opening fdCtl fdData request c sw).sock.ep c.addr =
      some ⟨c.addr, allocIndex request s.sock.sw, fdCtl, fdData, s.sock.connOf fdCtl⟩ := by
    simp [DataSock.ep, OpenSock.opening]
  have hcloses : DataSock.closes (allocIndex request s.sock.sw) fdCtl
      ⟨c.addr, allocIndex request s.sock.sw, fdCtl, fdData, s.sock.connOf fdCtl⟩ = true := by
    simp [DataSock.closes]
  obtain ⟨hnum', heps', hfound⟩ := @closeEpPortFd_eps sw (allocIndex request s.sock.sw) fdCtl (by rw [hnum]; exact hlt)
  rw [hports, Function.update_self] at heps' hfound
  have hok := hfound.mpr ⟨_, mem_cons_self, rfl⟩
  rw [eraseP_cons_of_pos (by simp), Function.update_idem, Function.update_eq_self] at heps'
  -- the state in which `delep` is called
  let sock₁ : DataSock := { (s.opening fdCtl fdData request c sw).sock with
    sw := (closeEpPortFd (allocIndex request s.sock.sw) fdCtl sw).2, eps := s.sock.eps }
  let s₁ : OpenSock := ⟨sock₁, fdData :: s.opened⟩
  have hclose : (s.opening fdCtl fdData request c sw).closeEp c.addr = s₁.delep fdCtl fdData := by
    rw [OpenSock.closeEp, hep]
    dsimp only [OpenSock.closeEpPortFd]
    have hsw : (s.opening fdCtl fdData request c sw).sock.sw = sw := rfl
    rw [hsw]
    have hpair : closeEpPortFd (allocIndex request s.sock.sw) fdCtl sw =
        (.ok, (closeEpPortFd (allocIndex request s.sock.sw) fdCtl sw).2) := Prod.ext hok rfl
    have hlist : (s.opening fdCtl fdData request c sw).sock.eps =
        ⟨c.addr, allocIndex request s.sock.sw, fdCtl, fdData, s.sock.connOf fdCtl⟩ :: s.sock.eps := rfl
    rw [hpair, hlist]
    dsimp only
    rw [find?_cons_of_pos hcloses, eraseP_cons_of_pos hcloses]
    rfl
  have hbag₁ : PollBag s₁.sock.poll := hbag
  have hrec : ∃ i < s₁.sock.poll.nfds, (s₁.sock.poll.fds i).fd = fdData := by
    apply (polled_iff hbag₁).mpr
    exact ⟨_, _, (hasRecord_addFd h hfd.2).mpr (.inl ⟨rfl, rfl, rfl⟩)⟩
  have hopened : (s₁.removeFd fdData).opened = s.opened := by
    unfold OpenSock.removeFd
    cases hfind : findFd s₁.sock.poll fdData with
    | none =>
      obtain ⟨i, hi, hfd⟩ := hrec
      exact absurd hfd (findFd_eq_none hfind i hi)
    | some i =>
      show (fdData :: s.opened).erase fdData = s.opened
      exact erase_cons_head ..
  rw [hclose, OpenSock.delep]
  obtain ⟨heps₁, hsw₁⟩ := eps_removeFd fdData s₁
  obtain ⟨heps₂, hsw₂⟩ := eps_removeFd fdCtl (s₁.removeFd fdData)
  refine ⟨?_, removed_unpolled (bag_removeFd hbag₁ fdData) fdCtl, ?_, ?_⟩
  · intro fd hsame hmem
    have hmem' := opened_removeFd fdCtl _ hmem
    rw [hsocket] at hsame
    cases hsame
    rw [hopened] at hmem'
    exact hclosed hmem'
  · rw [heps₂, heps₁]
  rw [hsw₂, hsw₁]
  exact heps'

lemma attachMem_false {portno : Nat} {fdC fdD : Int} {user : BitVec 32} {port : Port} (sw : Switch) :
    (attachMem belongs false portno fdC fdD user port sw).1 ≠ .ok := by
  rw [attachMem, if_neg (by simp)]
  dsimp only
  generalize (if port.ep = [] ∧ checkportAc belongs port user = true then user else port.curuser) = curuser
  split <;> simp

lemma attach_refused {portno : Nat} {fdC fdD : Int} {user : BitVec 32} {port : Port} {sw : Switch}
    (h : (attach belongs portno fdC fdD user port sw).1 ≠ .ok) :
    (attach belongs portno fdC fdD user port sw).2.trap = sw.trap := by
  unfold attach at h ⊢
  dsimp only at h ⊢
  generalize (if port.ep = [] ∧ checkportAc belongs port user = true then user else port.curuser) = curuser at h ⊢
  by_cases hcur : curuser = user
  · rw [if_pos hcur] at h
    exact absurd rfl h
  rw [if_neg hcur]
  rfl

lemma setupEpMem_cases (mem : Bool) {fdC fdD : Int} {user : BitVec 32} (sw : Switch) (hrun : sw.trap = false) :
    ((setupEpMem belongs mem request fdC fdD user sw).1 = .ok →
      (setupEpMem belongs mem request fdC fdD user sw).2.trap = true ∨
        setupEpMem belongs mem request fdC fdD user sw = setupEp belongs request fdC fdD user sw) ∧
    ((setupEpMem belongs mem request fdC fdD user sw).1 ≠ .ok →
      (setupEpMem belongs mem request fdC fdD user sw).2.trap = false) := by
  unfold setupEpMem setupEp
  have halloc : (allocPort request sw).1 = none → (allocPort request sw).2 = sw := by
    unfold allocPort
    dsimp only
    split
    · exact fun _ => rfl
    · split <;> intro hnone <;> cases hnone
  generalize allocPort request sw = r at halloc
  obtain ⟨o, sw'⟩ := r
  cases o with
  | none =>
    have hsame : sw' = sw := halloc rfl
    refine ⟨fun hok => ?_, fun _ => ?_⟩
    · cases hok
    rw [← hsame] at hrun
    exact hrun
  | some i =>
    dsimp only
    by_cases htrap : sw'.trap = true
    · rw [if_pos htrap]
      exact ⟨fun _ => .inl htrap, fun hne => absurd rfl hne⟩
    simp only [if_neg htrap]
    cases hport : sw'.portv i with
    | none => exact ⟨fun _ => .inl rfl, fun hne => absurd rfl hne⟩
    | some port =>
      dsimp only
      cases mem with
      | false =>
        refine ⟨fun hok => absurd hok (attachMem_false belongs sw'), fun _ => ?_⟩
        rw [attachMem, if_neg (by simp)]
        exact (Bool.not_eq_true _).mp htrap
      | true =>
        refine ⟨fun _ => .inr rfl, fun hne => ?_⟩
        exact (attach_refused belongs hne).trans ((Bool.not_eq_true _).mp htrap)

lemma newPort_cases (mem : Bool) (typePort : BitVec 32) (h : PollBag s.sock.poll)
    (hclosed : ∀ fdData, c.socket = some fdData → fdData ∉ s.opened) :
    (setupAnswer belongs mem fdCtl typePort c s.sock = none ∧
        CleanedUp s (newPortV1V3Open belongs mem fdCtl typePort c s).2 fdCtl c) ∨
      ∃ request fdData, c.socket = some fdData ∧
        setupAnswer belongs mem fdCtl typePort c s.sock =
          some (setupEpMem belongs mem request fdCtl fdData c.user s.sock.sw).1 ∧
        newPortV1V3Open belongs mem fdCtl typePort c s =
          newEndpointOpen belongs mem fdCtl fdData request c { s with opened := fdData :: s.opened } := by
  unfold setupAnswer newPortV1V3Open NewPortCalls.fdData
  cases portRequest typePort with
  | none => exact .inl ⟨rfl, cleanedUp_early h rfl hclosed fdCtl⟩
  | some request =>
    dsimp only
    by_cases haccess : (c.named && !c.access) = true
    · rw [if_pos haccess, if_pos haccess]
      exact .inl ⟨rfl, cleanedUp_early h rfl hclosed fdCtl⟩
    rw [if_neg haccess, if_neg haccess]
    cases hsocket : c.socket with
    | none =>
      left
      refine ⟨rfl, cleanedUp_early h rfl ?_ fdCtl⟩
      intro fdData hfd
      rw [hsocket] at hfd
      cases hfd
    | some fdData =>
      dsimp only
      have hshut : CleanedUp s
          ((OpenSock.close fdData { s with opened := fdData :: s.opened }).removeFd fdCtl) fdCtl c := by
        apply @cleanedUp_early s c (OpenSock.close fdData { s with opened := fdData :: s.opened }) h rfl
        intro fd hfd hmem
        have herase : (fdData :: s.opened).erase fdData = s.opened := erase_cons_head ..
        have hmem : fd ∈ (fdData :: s.opened).erase fdData := hmem
        rw [herase] at hmem
        exact hclosed fd hfd hmem
      by_cases hnonblock : (!c.nonblock) = true
      · rw [if_pos hnonblock, if_pos hnonblock]
        exact .inl ⟨rfl, hshut⟩
      rw [if_neg hnonblock, if_neg hnonblock]
      by_cases hconnect : (!c.connect) = true
      · rw [if_pos hconnect, if_pos hconnect]
        exact .inl ⟨rfl, hshut⟩
      rw [if_neg hconnect, if_neg hconnect]
      exact .inr ⟨request, fdData, rfl, rfl, rfl⟩

lemma newEndpoint_cases (mem : Bool) (h : PollBag s.sock.poll) (hrunning : s.sock.sw.trap = false)
    (hfresh : c.Fresh s.sock) (hsocket : c.socket = some fdData) (hclosed : fdData ∉ s.opened) (request : Int) :
    let r := newEndpointOpen belongs mem fdCtl fdData request c { s with opened := fdData :: s.opened }
    let e := (setupEpMem belongs mem request fdCtl fdData c.user s.sock.sw).1
    (e = .ok → r.1 = none → r.2.sock.sw.trap = false → CleanedUp s r.2 fdCtl c) ∧
      (e ≠ .ok → r.1 = none ∧ r.2.sock.sw.trap = false ∧ fdData ∈ r.2.opened) := by
  obtain ⟨hok, hrefused⟩ := @setupEpMem_cases belongs request mem fdCtl fdData c.user s.sock.sw hrunning
  dsimp only
  unfold newEndpointOpen
  dsimp only
  generalize hres : setupEpMem belongs mem request fdCtl fdData c.user s.sock.sw = res at hok hrefused
  obtain ⟨e, sw⟩ := res
  by_cases he : e = .ok
  · subst he
    refine ⟨fun _ => ?_, fun hne => absurd rfl hne⟩
    dsimp only
    by_cases htrap : sw.trap = true
    · rw [if_pos htrap]
      intro _ hrun
      rw [hrun] at htrap
      cases htrap
    rw [if_neg htrap]
    have hsetup : setupEp belongs request fdCtl fdData c.user s.sock.sw = (.ok, sw) := by
      cases hok rfl with
      | inl hcrash => exact absurd hcrash htrap
      | inr heq => exact heq.symm
    have hlate := cleanedUp_late belongs h hfresh hsocket hclosed hsetup ((Bool.not_eq_true _).mp htrap)
    by_cases hbind : (!c.bind) = true
    · rw [if_pos hbind]
      exact fun _ _ => hlate
    rw [if_neg hbind]
    by_cases hchown : (!c.chown) = true
    · rw [if_pos hchown]
      exact fun _ _ => hlate
    rw [if_neg hchown]
    by_cases hwrite : (!c.write) = true
    · rw [if_pos hwrite]
      exact fun _ _ => hlate
    rw [if_neg hwrite]
    intro hnone
    cases hnone
  refine ⟨fun heq => absurd heq he, fun hne => ?_⟩
  have htrap := hrefused hne
  cases e with
  | ok => exact absurd rfl he
  | _ => exact ⟨rfl, htrap, mem_cons_self⟩

end Exits

lemma cleansUp_iff {s : OpenSock} (hs : (openMachine belongs).Reach OpenStart s) {i : Nat} {r : Request}
    {c : NewPortCalls} {mem : Bool} (he : (openMachine belongs).enabled s (.read i (.request r c), mem))
    (typePort : BitVec 32) : CleansUp belongs mem (s.sock.poll.fds i).fd typePort c s ↔ ∀ e,
    setupAnswer belongs mem (s.sock.poll.fds i).fd typePort c s.sock = some e → e = .ok := by
  have hbag := reach_bag belongs hs
  obtain ⟨hrunning, hlegal, hclosed⟩ := he
  have hfresh : c.Fresh s.sock := hlegal.2.2
  cases @newPort_cases belongs s (s.sock.poll.fds i).fd c mem typePort hbag hclosed with
  | inl hearly =>
    obtain ⟨hanswer, hclean⟩ := hearly
    rw [hanswer]
    constructor
    · intro _ e he
      cases he
    · exact fun _ _ _ => hclean
  | inr hlate =>
    obtain ⟨request, fdData, hsocket, hanswer, hcall⟩ := hlate
    obtain ⟨hok, hrefused⟩ := @newEndpoint_cases belongs s (s.sock.poll.fds i).fd c fdData mem hbag hrunning hfresh
      hsocket (hclosed fdData hsocket) request
    rw [hanswer, CleansUp, hcall]
    constructor
    · intro hclean e heq
      cases heq
      by_contra hne
      obtain ⟨hnone, htrap, hopen⟩ := hrefused hne
      exact (hclean hnone htrap).data fdData hsocket hopen
    intro hall
    exact hok (hall _ rfl)

/-- In every state that the module comes to, a request that is given up is cleaned up unless `setup_ep` has
refused it: then the data descriptor stays open. -/
theorem new_port_cleans_up_iff {s : OpenSock} (hs : (openMachine belongs).Reach OpenStart s) {i : Nat} {r : Request}
    {c : NewPortCalls} {mem : Bool} (he : (openMachine belongs).enabled s (.read i (.request r c), mem))
    (typePort : BitVec 32) : CleansUp belongs mem (s.sock.poll.fds i).fd typePort c s ↔ ∀ e,
    setupAnswer belongs mem (s.sock.poll.fds i).fd typePort c s.sock = some e → e = .ok :=
  cleansUp_iff belongs hs he typePort

def oneClient : List (DsEvent × Bool) := [(.poll (.addFd 3 0x00#8 0 100), true), (.connect 5 101, true)]

def clientSock : OpenSock := (openMachine noGroups).run ⟨freshDataSock, []⟩ oneClient

lemma clientSock_reached : (openMachine noGroups).Reach OpenStart clientSock := by
  apply Machine.Reach.run
  · exact .init _ ⟨⟨freshSwitch_start false, by decide, rfl, rfl, rfl, rfl⟩, rfl⟩
  refine ⟨⟨rfl, ⟨⟨?_, rfl⟩, by decide⟩, trivial⟩, ⟨rfl, ⟨?_, ?_⟩, ?_⟩, trivial⟩
  · exact fun i hi => absurd hi (Nat.not_lt_zero i)
  · decide +kernel
  · decide +kernel
  · exact not_mem_nil

/-- A request of the super-user for a port; its data socket cannot be bound. -/
def unboundCalls : NewPortCalls := ⟨true, true, 0#32, some 6, true, true, false, true, true, 1000, 102⟩

lemma unboundCalls_enabled (r : Request) :
    (openMachine noGroups).enabled clientSock (.read 1 (.request r unboundCalls), true) := by
  refine ⟨by decide +kernel, ⟨by decide +kernel, by decide +kernel, ?_, by decide, ?_, by decide +kernel⟩, ?_⟩
  · rintro fdData ⟨⟩
    decide +kernel
  · exact fun e he => absurd he not_mem_nil
  rintro fdData ⟨⟩
  decide +kernel

/-- `bind` fails, and all is cleaned up. -/
theorem new_port_cleans_up_unbound : CleansUp noGroups true (clientSock.sock.poll.fds 1).fd 0#32 unboundCalls clientSock := by
  apply (new_port_cleans_up_iff noGroups clientSock_reached (unboundCalls_enabled ⟨switchMagic, 3#32, 0#32⟩) 0#32).mpr
  intro e he
  have hanswer : setupAnswer noGroups true (clientSock.sock.poll.fds 1).fd 0#32 unboundCalls clientSock.sock =
      some .ok := by
    decide +kernel
  rw [hanswer] at he
  cases he
  rfl

/-- There is no port 1000: the data descriptor stays open. -/
theorem refused_request_leaves_descriptor :
    (openMachine noGroups).Reach OpenStart clientSock ∧
      (openMachine noGroups).enabled clientSock (.read 1 (.request ⟨switchMagic, 3#32, 0x3e800#32⟩ unboundCalls), true) ∧
      ¬CleansUp noGroups true (clientSock.sock.poll.fds 1).fd 0x3e800#32 unboundCalls clientSock := by
  refine ⟨clientSock_reached, unboundCalls_enabled _, ?_⟩
  rw [cleansUp_iff noGroups clientSock_reached (unboundCalls_enabled ⟨switchMagic, 3#32, 0x3e800#32⟩)]
  intro hall
  have hanswer : setupAnswer noGroups true (clientSock.sock.poll.fds 1).fd 0x3e800#32 unboundCalls clientSock.sock =
      some .enomem := by
    decide +kernel
  cases hall _ hanswer

end Vde
