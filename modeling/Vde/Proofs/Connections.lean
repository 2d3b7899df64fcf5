import Vde.DataSock
import Vde.Proofs.EndpointLists
import Vde.Proofs.PollRecords
import Vde.Proofs.RunInvariant

/-!
# Endpoints and their connections

Clients connect, ask for ports and hang up, endpoints are closed from the console, and other modules
use the poll tables, in any order. As long as no request comes on a connection that has an endpoint,
a connection with an endpoint is not given up after an error, and the index of a control descriptor
is right when its private data are set, every endpoint has a control descriptor of its own and goes
with its connection.
-/

namespace Vde

open List Function

/-- A client connects, `read` returns on the control connection at index `i` of the poll array, the
client of a connection that was already closed hangs up, an endpoint is closed from the console, or
the poll tables are used for something else. -/
inductive DsEvent where
  | connect (new a : Nat)
  | read (i : Nat) (input : WdRead)
  | left (conn : Nat)
  | epclose (port id : Int)
  | poll (op : PollOp)

def PollTable.privateDataAt (t : PollTable) (i : Nat) : Nat :=
  ((t.pp (t.fdpp i)).map PollPlus.privateData).getD 0

def PollTable.typeAt (t : PollTable) (i : Nat) : Option (BitVec 8) := (t.pp (t.fdpp i)).map PollPlus.type

section

variable (belongs : BitVec 32 → BitVec 32 → Bool)

def dsStep (s : DataSock) : DsEvent → DataSock
  | .connect new a => handleCtl new a s
  | .read i input =>
    let fd := (s.poll.fds i).fd
    let s' := handleWd belongs fd (s.poll.privateDataAt i) s input
    if input = .eof then { s' with hung := s.connOf fd :: s'.hung } else s'
  | .left conn => { s with hung := conn :: s.hung }
  | .epclose port id => s.closeEpPortFd port id
  | .poll op => { s with poll := op.apply s.poll }

/-- The system calls return descriptors that are not in use and free memory. -/
def NewPortCalls.Fresh (s : DataSock) (c : NewPortCalls) : Prop :=
  (∀ fdData, c.socket = some fdData → ∀ i < s.poll.nfds, (s.poll.fds i).fd ≠ fdData) ∧
    c.addr ≠ 0 ∧ (∀ e ∈ s.eps, e.addr ≠ c.addr) ∧ s.poll.pp c.record = none

def DsEvent.Legal (s : DataSock) : DsEvent → Prop
  | .connect new a => (PollOp.addFd new s.wdType 0 a).Fresh s.poll
  | .read i input => i < s.poll.nfds ∧ s.poll.typeAt i = some s.wdType ∧
      match input with
      | .request _ c => c.Fresh s
      | _ => True
  | .left conn => conn < s.nconns ∧ ∀ k ∈ s.conns, k.id ≠ conn
  | .epclose _ _ => True
  -- the other modules leave the descriptors of this one alone
  | .poll op => op.Fresh s.poll ∧
      match op with
      | .addFd _ type _ _ => type ≠ s.wdType ∧ type ≠ s.dataType
      | .removeFd fd => ∀ i < s.poll.nfds, (s.poll.fds i).fd = fd →
          s.poll.typeAt i ≠ some s.wdType ∧ s.poll.typeAt i ≠ some s.dataType
      | .setPrivateData _ _ => False
      | _ => True

def dsMachine : Machine DataSock DsEvent where
  enabled s e := s.sw.trap = false ∧ e.Legal s
  step := dsStep belongs

/-- The module just started, with the types that `add_type` has given to the control connections
and to the data sockets. -/
def DsStart (s : DataSock) : Prop :=
  SwitchStart s.sw ∧ s.wdType ≠ s.dataType ∧ s.poll = pollTableInit ∧ s.eps = [] ∧ s.conns = [] ∧
    s.hung = []

def Mirrors (s : DataSock) : Prop :=
  ∀ p, s.sw.eps p = (s.eps.filter (fun e => e.port == p)).map DsEndpoint.toEndpoint

/-- Every control descriptor belongs to one endpoint at most, `close_ep` unlinks exactly its
argument, and no endpoint remains whose client has hung up. -/
structure DsOk (s : DataSock) : Prop where
  lists : Mirrors s
  once : (s.eps.map DsEndpoint.fdCtl).Nodup
  unlinks : ∀ e ∈ s.eps, (s.closeEp e.addr).eps = s.eps.filter (fun e' => e'.addr != e.addr) ∧
    Mirrors (s.closeEp e.addr)
  gone : ∀ e ∈ s.eps, e.conn ∉ s.hung

def HasEndpoint (s : DataSock) (fd : Nat) : Prop := ∃ e ∈ s.eps, e.fdCtl = fd

def Request.Asks (r : Request) (c : NewPortCalls) (request : Int) (fdData : Nat) : Prop :=
  ∃ typePort, r.typePort = some typePort ∧ portRequest typePort = some request ∧ c.fdData = some fdData

def Refused (s : DataSock) (fd : Nat) (r : Request) (c : NewPortCalls) : Prop :=
  ∃ request fdData, r.Asks c request fdData ∧ (setupEp belongs request fd fdData c.user s.sw).1 ≠ .ok

def Granted (s : DataSock) (fd : Nat) (r : Request) (c : NewPortCalls) : Prop :=
  ∃ request fdData, r.Asks c request fdData ∧ (setupEp belongs request fd fdData c.user s.sw).1 = .ok ∧
    c.bind = true ∧ c.chown = true ∧ c.write = true

/-- The control descriptor at index `i` is not the first of the ordinary ones, which the data
descriptor will displace, and `fdperm` has its index. -/
def Placed (s : DataSock) (i : Nat) : Prop :=
  i ≠ s.poll.nprio ∧ s.poll.fdperm (s.poll.fds i).fd = i

/-- A connection with an endpoint is not given up after an error and gets no further endpoint, and
an endpoint is created on a descriptor that is well placed. -/
def Orderly (s : DataSock) : DsEvent → Prop
  | .read i .error => ¬HasEndpoint s (s.poll.fds i).fd
  | .read i (.request r c) =>
    (HasEndpoint s (s.poll.fds i).fd → Refused belongs s (s.poll.fds i).fd r c) ∧
      (Granted belongs s (s.poll.fds i).fd r c → Placed s i)
  | _ => True

end

/-- What holds of the module as long as the runs are orderly. -/
structure DsInv (s : DataSock) : Prop where
  types : s.wdType ≠ s.dataType
  bag : PollBag s.poll
  sized : PollSized s.poll
  lists : Mirrors s
  ports : ∀ e ∈ s.eps, e.port < s.sw.numports
  addrs : (s.eps.map DsEndpoint.addr).Nodup
  valid : ∀ e ∈ s.eps, e.addr ≠ 0
  ids : (s.conns.map Conn.id).Nodup
  fds : (s.conns.map Conn.fd).Nodup
  fresh : ∀ k ∈ s.conns, k.id < s.nconns
  past : ∀ c ∈ s.hung, c < s.nconns
  alive : ∀ k ∈ s.conns, k.id ∉ s.hung
  conn : ∀ e ∈ s.eps, ⟨e.conn, e.fdCtl⟩ ∈ s.conns
  ctl : ∀ e ∈ s.eps, HasRecord s.poll e.fdCtl s.wdType e.addr
  data : ∀ e ∈ s.eps, HasRecord s.poll e.fdData s.dataType e.addr
  idle : ∀ k ∈ s.conns, ¬HasEndpoint s k.fd → HasRecord s.poll k.fd s.wdType 0
  wd : ∀ fd privateData, HasRecord s.poll fd s.wdType privateData → ∃ k ∈ s.conns, k.fd = fd

variable {e e' : DsEndpoint} {privateData i : Nat}

section

variable {s s' : DataSock}

section

variable (h : DsInv s) (he : e ∈ s.eps) (he' : e' ∈ s.eps)

include h he he'

lemma DsInv.eq_of_addr (haddr : e.addr = e'.addr) : e = e' :=
  inj_on_of_nodup_map h.addrs he he' haddr

lemma DsInv.eq_of_ctl (hfd : e.fdCtl = e'.fdCtl) : e = e' := by
  have hctl := h.ctl e he
  rw [hfd] at hctl
  exact h.eq_of_addr he he' (hctl.unique h.bag (h.ctl e' he')).2

lemma DsInv.eq_of_data (hfd : e.fdData = e'.fdData) : e = e' := by
  have hdata := h.data e he
  rw [hfd] at hdata
  exact h.eq_of_addr he he' (hdata.unique h.bag (h.data e' he')).2

end

lemma DsInv.ne_data (h : DsInv s) (he : e ∈ s.eps) {fd : Nat}
    (hfd : HasRecord s.poll fd s.wdType privateData) : fd ≠ e.fdData := by
  intro heq
  rw [heq] at hfd
  exact h.types (hfd.unique h.bag (h.data e he)).1

lemma DsInv.registered (h : DsInv s) {k : Conn} (hk : k ∈ s.conns) :
    ∃ privateData, HasRecord s.poll k.fd s.wdType privateData := by
  by_cases hep : HasEndpoint s k.fd
  · obtain ⟨e, he, hfd⟩ := hep
    rw [← hfd]
    exact ⟨e.addr, h.ctl e he⟩
  · exact ⟨0, h.idle k hk hep⟩

lemma connOf_eq (hfds : (s.conns.map Conn.fd).Nodup) {k : Conn} (hk : k ∈ s.conns) : s.connOf k.fd = k.id := by
  rw [DataSock.connOf]
  cases hfind : s.conns.find? (fun k' => k'.fd == k.fd) with
  | none => exact absurd (find?_eq_none.mp hfind k hk) (by simp)
  | some k' =>
    have hfd : k'.fd = k.fd := by simpa using find?_some hfind
    rw [inj_on_of_nodup_map hfds (mem_of_find?_eq_some hfind) hk hfd]
    rfl

/-- The state `s'` is `s` without the descriptors that `dead` holds of, and without the endpoints
that belong to them. -/
structure Shrinks (s s' : DataSock) (dead : Nat → Prop) : Prop where
  wdType : s'.wdType = s.wdType
  dataType : s'.dataType = s.dataType
  nconns : s'.nconns = s.nconns
  numports : s'.sw.numports = s.sw.numports
  bag : PollBag s'.poll
  sized : PollSized s'.poll
  lists : Mirrors s'
  records : ∀ fd type privateData, type = s.wdType ∨ type = s.dataType →
    (HasRecord s'.poll fd type privateData ↔ ¬dead fd ∧ HasRecord s.poll fd type privateData)
  eps : s'.eps.Sublist s.eps
  left : ∀ e ∈ s'.eps, ¬dead e.fdCtl ∧ ¬dead e.fdData
  stay : ∀ e ∈ s.eps, ¬dead e.fdCtl → e ∈ s'.eps
  conns : s'.conns.Sublist s.conns
  kept : ∀ k ∈ s.conns, k ∈ s'.conns ↔ ¬dead k.fd
  past : ∀ c ∈ s'.hung, c < s.nconns
  alive : ∀ k ∈ s'.conns, k.id ∉ s'.hung

lemma Shrinks.inv {dead : Nat → Prop} (hs : Shrinks s s' dead) (h : DsInv s) : DsInv s' where
  types := by
    rw [hs.wdType, hs.dataType]
    exact h.types
  bag := hs.bag
  sized := hs.sized
  lists := hs.lists
  ports e he := by
    rw [hs.numports]
    exact h.ports e (hs.eps.mem he)
  addrs := h.addrs.sublist (hs.eps.map _)
  valid e he := h.valid e (hs.eps.mem he)
  ids := h.ids.sublist (hs.conns.map _)
  fds := h.fds.sublist (hs.conns.map _)
  fresh k hk := by
    rw [hs.nconns]
    exact h.fresh k (hs.conns.mem hk)
  past := by
    rw [hs.nconns]
    exact hs.past
  alive := hs.alive
  conn e he := (hs.kept _ (h.conn e (hs.eps.mem he))).mpr (hs.left e he).1
  ctl e he := by
    rw [hs.wdType]
    exact (hs.records _ _ _ (.inl rfl)).mpr ⟨(hs.left e he).1, h.ctl e (hs.eps.mem he)⟩
  data e he := by
    rw [hs.dataType]
    exact (hs.records _ _ _ (.inr rfl)).mpr ⟨(hs.left e he).2, h.data e (hs.eps.mem he)⟩
  idle k hk hidle := by
    have hmem := hs.conns.mem hk
    have hlive := (hs.kept k hmem).mp hk
    rw [hs.wdType]
    refine (hs.records _ _ _ (.inl rfl)).mpr ⟨hlive, h.idle k hmem ?_⟩
    rintro ⟨e, he, hfd⟩
    refine hidle ⟨e, hs.stay e he ?_, hfd⟩
    rw [hfd]
    exact hlive
  wd fd privateData hrec := by
    rw [hs.wdType] at hrec
    obtain ⟨hlive, hold⟩ := (hs.records _ _ _ (.inl rfl)).mp hrec
    obtain ⟨k, hk, rfl⟩ := h.wd fd privateData hold
    exact ⟨k, (hs.kept k hk).mpr hlive, rfl⟩

/-! ## Closing an endpoint -/

lemma eraseP_eq_filter {α : Type} {p : α → Bool} {f : α → Nat} {a : α} {l : List α} (hnodup : (l.map f).Nodup)
    (ha : a ∈ l) (hp : ∀ b ∈ l, p b = true ↔ b = a) : l.eraseP p = l.filter (fun b => f b != f a) := by
  induction l with
  | nil => rfl
  | cons b l ih =>
    rw [map_cons, nodup_cons] at hnodup
    by_cases hba : b = a
    · subst hba
      have hother : ∀ c ∈ l, (f c != f b) = true := by
        intro c hc
        rw [bne_iff_ne]
        intro heq
        exact hnodup.1 (mem_map.mpr ⟨c, hc, heq⟩)
      rw [eraseP_cons_of_pos ((hp b mem_cons_self).mpr rfl),
        filter_cons_of_neg (by simp), filter_eq_self.mpr hother]
    have hmem : a ∈ l := (mem_cons.mp ha).resolve_left (Ne.symm hba)
    have hne : (f b != f a) = true := by
      rw [bne_iff_ne]
      intro heq
      exact hnodup.1 (mem_map.mpr ⟨a, hmem, heq.symm⟩)
    have hpb : ¬p b = true := fun h => hba ((hp b mem_cons_self).mp h)
    rw [eraseP_cons_of_neg hpb, filter_cons_of_pos (p := fun b => f b != f a) hne,
      ih hnodup.2 hmem (fun c hc => hp c (mem_cons_of_mem _ hc))]

lemma filter_eraseP_of_disjoint {α : Type} {p q : α → Bool} {l : List α}
    (h : ∀ a ∈ l, p a = true → q a = false) : (l.eraseP p).filter q = l.filter q := by
  induction l with
  | nil => rfl
  | cons a l ih =>
    by_cases hp : p a = true
    · have hq := h a mem_cons_self hp
      rw [eraseP_cons_of_pos hp, filter_cons_of_neg (by simp [hq])]
    have hrest := ih (fun b hb => h b (mem_cons_of_mem _ hb))
    rw [eraseP_cons_of_neg hp, filter_cons, filter_cons, hrest]

lemma mirrors_close (h : Mirrors s) {p fdCtl : Nat} (hp : p < s.sw.numports) (q : Nat) :
    (closeEpPortFd p fdCtl s.sw).2.eps q =
    ((s.eps.eraseP (DataSock.closes p fdCtl)).filter (fun e => e.port == q)).map DsEndpoint.toEndpoint := by
  rw [(closeEpPortFd_eps (fdCtl : Int) hp).2.1]
  by_cases hq : q = p
  · subst hq
    rw [update_self, h q, eraseP_map, eraseP_filter]
    have hsame : (fun e => ((fun e : Endpoint => e.fdCtl == (fdCtl : Int)) ∘ DsEndpoint.toEndpoint) e &&
        e.port == q) = DataSock.closes q fdCtl := by
      funext e
      rw [Bool.and_comm, DataSock.closes, comp_apply]
      congr 1
      simp
    rw [hsame]
  rw [update_of_ne hq, h q, filter_eraseP_of_disjoint]
  intro e _ hcloses
  simp only [DataSock.closes, Bool.and_eq_true, beq_iff_eq, Nat.cast_inj] at hcloses
  simp only [beq_eq_false_iff_ne]
  intro heq
  exact hq (heq.symm.trans hcloses.1)

lemma close_found (h : Mirrors s) (haddrs : (s.eps.map DsEndpoint.addr).Nodup)
    (he : e ∈ s.eps) (hport : e.port < s.sw.numports) (honly : ∀ e' ∈ s.eps, e'.fdCtl = e.fdCtl → e' = e) :
    ∃ sw, s.closeEpPortFd e.port e.fdCtl = DataSock.delep e.fdCtl e.fdData
        { s with sw := sw, eps := s.eps.filter (fun e' => e'.addr != e.addr) } ∧
      sw.numports = s.sw.numports ∧
      Mirrors { s with sw := sw, eps := s.eps.filter (fun e' => e'.addr != e.addr) } := by
  have hiff : ∀ e' ∈ s.eps, DataSock.closes e.port e.fdCtl e' = true ↔ e' = e := by
    intro e' he'
    constructor
    · intro hcloses
      simp only [DataSock.closes, Bool.and_eq_true, beq_iff_eq, Nat.cast_inj] at hcloses
      exact honly e' he' hcloses.2
    rintro rfl
    simp [DataSock.closes]
  have herase : s.eps.eraseP (DataSock.closes e.port e.fdCtl) = s.eps.filter (fun e' => e'.addr != e.addr) :=
    eraseP_eq_filter haddrs he hiff
  have hfind : s.eps.find? (DataSock.closes e.port e.fdCtl) = some e := by
    cases hf : s.eps.find? (DataSock.closes e.port e.fdCtl) with
    | none => exact absurd ((hiff e he).mpr rfl) (find?_eq_none.mp hf e he)
    | some e' => rw [(hiff e' (mem_of_find?_eq_some hf)).mp (find?_some hf)]
  obtain ⟨hnum, -, hok⟩ := closeEpPortFd_eps (s := s.sw) (p := e.port) (e.fdCtl : Int) hport
  have hrv : (closeEpPortFd e.port e.fdCtl s.sw).1 = .ok := by
    refine hok.mpr ⟨e.toEndpoint, ?_, rfl⟩
    rw [h e.port]
    exact mem_map.mpr ⟨e, mem_filter.mpr ⟨he, by simp⟩, rfl⟩
  refine ⟨(closeEpPortFd e.port e.fdCtl s.sw).2, ?_, hnum, ?_⟩
  · rw [DataSock.closeEpPortFd]
    generalize closeEpPortFd e.port e.fdCtl s.sw = r at hrv
    obtain ⟨rv, sw⟩ := r
    obtain rfl : rv = .ok := hrv
    dsimp only
    rw [hfind, herase]
  intro q
  rw [mirrors_close h hport q, herase]

lemma removeFd_eq {fd : Nat} {type : BitVec 8} (h : HasRecord s.poll fd type privateData) :
    s.removeFd fd =
      { s with poll := removeFd fd s.poll, conns := s.conns.filter (fun k => k.fd != fd) } := by
  rw [DataSock.removeFd]
  cases hfind : findFd s.poll fd with
  | none =>
    obtain ⟨i, hi, hfd⟩ := h.index
    exact absurd hfd (findFd_eq_none hfind i hi)
  | some i => rfl

lemma hung_removeFd (fd : Nat) (s : DataSock) : (s.removeFd fd).hung = s.hung := by
  rw [DataSock.removeFd]
  split <;> rfl

lemma hung_closeEpPortFd (port id : Int) (s : DataSock) : (s.closeEpPortFd port id).hung = s.hung := by
  rw [DataSock.closeEpPortFd]
  split
  · split
    · rfl
    · rw [DataSock.delep, hung_removeFd, hung_removeFd]
  · rfl

lemma delep_eq {fdCtl fdData privateData' : Nat} (hbag : PollBag s.poll)
    (htypes : s.wdType ≠ s.dataType) (hctl : HasRecord s.poll fdCtl s.wdType privateData)
    (hdata : HasRecord s.poll fdData s.dataType privateData') (hconns : ∀ k ∈ s.conns, k.fd ≠ fdData) :
    s.delep fdCtl fdData =
      { s with
        poll := removeFd fdCtl (removeFd fdData s.poll)
        conns := s.conns.filter (fun k => k.fd != fdCtl) } := by
  have hne : fdCtl ≠ fdData := by
    rintro rfl
    exact htypes (hctl.unique hbag hdata).1
  have hall : s.conns.filter (fun k => k.fd != fdData) = s.conns := by
    refine filter_eq_self.mpr ?_
    intro k hk
    exact bne_iff_ne.mpr (hconns k hk)
  rw [DataSock.delep, removeFd_eq hdata, hall]
  exact removeFd_eq ((hasRecord_removeFd hbag).mpr ⟨hne, hctl⟩)

lemma DsInv.quiet (h : DsInv s) {sw : Switch} (hnum : sw.numports = s.sw.numports) (heps : sw.eps = s.sw.eps)
    {poll : PollTable} (hbag : PollBag poll) (hsize : PollSized poll)
    (hrec : ∀ fd type privateData, type = s.wdType ∨ type = s.dataType →
      (HasRecord poll fd type privateData ↔ HasRecord s.poll fd type privateData))
    {hung : List Nat} (hpast : ∀ c ∈ hung, c < s.nconns) (halive : ∀ k ∈ s.conns, k.id ∉ hung) :
    DsInv { s with sw := sw, poll := poll, hung := hung } := by
  have hshrinks : Shrinks s { s with sw := sw, poll := poll, hung := hung } (fun _ => False) := by
    refine ⟨rfl, rfl, rfl, hnum, hbag, hsize, ?_, ?_, Sublist.refl _, ?_, ?_, Sublist.refl _, ?_,
      hpast, halive⟩
    · intro p
      rw [heps]
      exact h.lists p
    · intro fd type privateData htype
      rw [hrec fd type privateData htype]
      exact ⟨fun hold => ⟨id, hold⟩, fun hold => hold.2⟩
    · exact fun _ _ => ⟨id, id⟩
    · exact fun _ he _ => he
    · exact fun _ hk => ⟨fun _ => id, fun _ => hk⟩
  exact hshrinks.inv h

lemma DsInv.drop (h : DsInv s) {k : Conn} (hk : k ∈ s.conns) (hidle : ¬HasEndpoint s k.fd) {sw : Switch}
    (hnum : sw.numports = s.sw.numports) (heps : sw.eps = s.sw.eps) {poll : PollTable} (hbag : PollBag poll)
    (hsize : PollSized poll)
    (hrec : ∀ fd type privateData, HasRecord poll fd type privateData ↔
      fd ≠ k.fd ∧ HasRecord s.poll fd type privateData)
    {hung : List Nat} (hhung : ∀ c ∈ hung, c = k.id ∨ c ∈ s.hung) :
    DsInv { s with sw := sw, poll := poll, conns := s.conns.filter (fun k' => k'.fd != k.fd), hung := hung } := by
  have hshrinks : Shrinks s
      { s with sw := sw, poll := poll, conns := s.conns.filter (fun k' => k'.fd != k.fd), hung := hung }
      (fun fd => fd = k.fd) := by
    refine ⟨rfl, rfl, rfl, hnum, hbag, hsize, ?_, ?_, Sublist.refl _, ?_, ?_, filter_sublist, ?_, ?_, ?_⟩
    · intro p
      rw [heps]
      exact h.lists p
    · intro fd type privateData _
      exact hrec fd type privateData
    · intro e he
      obtain ⟨privateData, hreg⟩ := h.registered hk
      exact ⟨fun heq => hidle ⟨e, he, heq⟩, Ne.symm (h.ne_data he hreg)⟩
    · exact fun e he _ => he
    · intro k' hk'
      rw [mem_filter, bne_iff_ne]
      exact ⟨fun hmem => hmem.2, fun hne => ⟨hk', hne⟩⟩
    · intro c hc
      rcases hhung c hc with rfl | hc
      · exact h.fresh k hk
      · exact h.past c hc
    · intro k' hk' hmem
      rw [mem_filter, bne_iff_ne] at hk'
      rcases hhung _ hmem with heq | hmem
      · exact hk'.2 (by rw [inj_on_of_nodup_map h.ids hk'.1 hk heq])
      · exact h.alive k' hk'.1 hmem
  exact hshrinks.inv h

lemma DsInv.close (h : DsInv s) (he : e ∈ s.eps) (hung : List Nat)
    (hhung : ∀ c ∈ hung, c = e.conn ∨ c ∈ s.hung) :
    DsInv { s.closeEpPortFd e.port e.fdCtl with hung := hung } ∧
      (s.closeEpPortFd e.port e.fdCtl).eps = s.eps.filter (fun e' => e'.addr != e.addr) ∧
      Mirrors (s.closeEpPortFd e.port e.fdCtl) := by
  obtain ⟨sw, heq, hnum, hlists⟩ := close_found h.lists h.addrs he (h.ports e he)
    (fun e' he' hfd => h.eq_of_ctl he' he hfd)
  have hconns : ∀ k ∈ s.conns, k.fd ≠ e.fdData := by
    intro k hk
    obtain ⟨privateData, hreg⟩ := h.registered hk
    exact h.ne_data he hreg
  rw [heq.trans (delep_eq h.bag h.types (h.ctl e he) (h.data e he) hconns)]
  refine ⟨?_, rfl, hlists⟩
  have hshrinks : Shrinks s
      { s with
        sw := sw
        eps := s.eps.filter (fun e' => e'.addr != e.addr)
        poll := removeFd e.fdCtl (removeFd e.fdData s.poll)
        conns := s.conns.filter (fun k => k.fd != e.fdCtl)
        hung := hung } (fun fd => fd = e.fdCtl ∨ fd = e.fdData) := by
    have hbag := pollBag_removeFd h.bag e.fdData
    refine ⟨rfl, rfl, rfl, hnum, pollBag_removeFd hbag _, ?_, hlists, ?_, filter_sublist, ?_, ?_,
      filter_sublist, ?_, ?_, ?_⟩
    · exact pollSized_apply hbag (pollSized_apply h.bag h.sized (.removeFd e.fdData)) (.removeFd e.fdCtl)
    · intro fd type privateData _
      rw [hasRecord_removeFd hbag, hasRecord_removeFd h.bag, ← and_assoc, not_or]
    · intro e' he'
      rw [mem_filter, bne_iff_ne] at he'
      have hne : e' ≠ e := fun heq => he'.2 (by rw [heq])
      rw [not_or, not_or]
      refine ⟨⟨?_, h.ne_data he (h.ctl e' he'.1)⟩, Ne.symm (h.ne_data he'.1 (h.ctl e he)), ?_⟩
      · exact fun hfd => hne (h.eq_of_ctl he'.1 he hfd)
      · exact fun hfd => hne (h.eq_of_data he'.1 he hfd)
    · intro e' he' hlive
      rw [mem_filter, bne_iff_ne]
      refine ⟨he', ?_⟩
      intro haddr
      rw [h.eq_of_addr he' he haddr] at hlive
      exact hlive (.inl rfl)
    · intro k hk
      rw [mem_filter, bne_iff_ne, not_or]
      exact ⟨fun hmem => ⟨hmem.2, hconns k hk⟩, fun hne => ⟨hk, hne.1⟩⟩
    · intro c hc
      rcases hhung c hc with rfl | hc
      · exact h.fresh _ (h.conn e he)
      · exact h.past c hc
    · intro k hk hmem
      rw [mem_filter, bne_iff_ne] at hk
      rcases hhung _ hmem with heq | hmem
      · exact hk.2 (by rw [inj_on_of_nodup_map h.ids hk.1 (h.conn e he) heq])
      · exact h.alive k hk.1 hmem
  exact hshrinks.inv h

lemma ep_eq (haddrs : (s.eps.map DsEndpoint.addr).Nodup) (he : e ∈ s.eps) : s.ep e.addr = some e := by
  rw [DataSock.ep]
  cases hfind : s.eps.find? (fun e' => e'.addr == e.addr) with
  | none => exact absurd (find?_eq_none.mp hfind e he) (by simp)
  | some e' =>
    have haddr : e'.addr = e.addr := by simpa using find?_some hfind
    rw [inj_on_of_nodup_map haddrs (mem_of_find?_eq_some hfind) he haddr]

lemma DsInv.ok (h : DsInv s) : DsOk s where
  lists := h.lists
  once := by
    refine (nodup_map_iff_inj_on h.addrs.of_map).mpr ?_
    intro e he e' he' hfd
    exact h.eq_of_ctl he he' hfd
  unlinks e he := by
    rw [DataSock.closeEp, ep_eq h.addrs he]
    exact (h.close he s.hung (fun _ hc => .inr hc)).2
  gone e he := h.alive _ (h.conn e he)

/-! ## Connections and requests -/

lemma handleCtl_inv (h : DsInv s) {new a : Nat} (hfresh : (PollOp.addFd new s.wdType 0 a).Fresh s.poll) :
    DsInv (handleCtl new a s) := by
  have hrec : ∀ fd type privateData, HasRecord (handleCtl new a s).poll fd type privateData ↔
      (fd = new ∧ type = s.wdType ∧ privateData = 0) ∨ HasRecord s.poll fd type privateData :=
    fun _ _ _ => hasRecord_addFd h.bag hfresh.2
  have hnew : ∀ k ∈ s.conns, k.fd ≠ new := by
    intro k hk
    obtain ⟨privateData, hreg⟩ := h.registered hk
    exact hfresh.ne hreg
  refine ⟨h.types, pollBag_apply h.bag hfresh, pollSized_apply h.bag h.sized (.addFd new s.wdType 0 a), h.lists,
    h.ports, h.addrs, h.valid, ?_, ?_, ?_, ?_, ?_, ?_, ?_, ?_, ?_, ?_⟩
  · refine nodup_cons.mpr ⟨?_, h.ids⟩
    intro hmem
    obtain ⟨k, hk, hid⟩ := mem_map.mp hmem
    exact Nat.ne_of_lt (h.fresh k hk) hid
  · refine nodup_cons.mpr ⟨?_, h.fds⟩
    intro hmem
    obtain ⟨k, hk, hfd⟩ := mem_map.mp hmem
    exact hnew k hk hfd
  · intro k hk
    rcases mem_cons.mp hk with rfl | hk
    · exact Nat.lt_succ_self _
    · exact Nat.lt_succ_of_lt (h.fresh k hk)
  · exact fun c hc => Nat.lt_succ_of_lt (h.past c hc)
  · intro k hk
    rcases mem_cons.mp hk with rfl | hk
    · exact fun hmem => Nat.lt_irrefl _ (h.past _ hmem)
    · exact h.alive k hk
  · exact fun e he => mem_cons_of_mem _ (h.conn e he)
  · exact fun e he => (hrec _ _ _).mpr (.inr (h.ctl e he))
  · exact fun e he => (hrec _ _ _).mpr (.inr (h.data e he))
  · intro k hk hidle
    rcases mem_cons.mp hk with rfl | hk
    · exact (hrec _ _ _).mpr (.inl ⟨rfl, rfl, rfl⟩)
    · exact (hrec _ _ _).mpr (.inr (h.idle k hk hidle))
  · intro fd privateData hfd
    rcases (hrec _ _ _).mp hfd with ⟨rfl, -, -⟩ | hold
    · exact ⟨_, mem_cons_self, rfl⟩
    obtain ⟨k, hk, hkfd⟩ := h.wd fd privateData hold
    exact ⟨k, mem_cons_of_mem _ hk, hkfd⟩

def opened (s : DataSock) (k : Conn) (request : Int) (fdData : Nat) (c : NewPortCalls) (sw : Switch) : DataSock :=
  { s with
    sw := sw
    eps := ⟨c.addr, allocIndex request s.sw, k.fd, fdData, k.id⟩ :: s.eps
    poll := addFd fdData s.dataType c.addr c.record s.poll }

variable {belongs : BitVec 32 → BitVec 32 → Bool} {k : Conn} {request : Int} {fdData : Nat} {c : NewPortCalls}
  {sw : Switch}

section

variable (h : DsInv s)

include h

lemma opened_lists (hsetup : setupEp belongs request k.fd fdData c.user s.sw = (.ok, sw))
    (hrun : sw.trap = false) : Mirrors (opened s k request fdData c sw) ∧ sw.numports = s.sw.numports ∧
    allocIndex request s.sw < s.sw.numports := by
  obtain ⟨hlt, hnum, heps⟩ := setupEp_ok belongs hsetup hrun
  refine ⟨?_, hnum, hlt⟩
  intro p
  dsimp only [opened]
  rw [heps]
  by_cases hp : p = allocIndex request s.sw
  · subst hp
    rw [update_self, h.lists, filter_cons_of_pos (by simp)]
    rfl
  · rw [update_of_ne hp, h.lists, filter_cons_of_neg (by simpa using Ne.symm hp)]

lemma opened_addrs (hc : ∀ e ∈ s.eps, e.addr ≠ c.addr) (k : Conn) (request : Int)
    (fdData : Nat) (sw : Switch) : ((opened s k request fdData c sw).eps.map DsEndpoint.addr).Nodup := by
  refine nodup_cons.mpr ⟨?_, h.addrs⟩
  intro hmem
  obtain ⟨e, he, haddr⟩ := mem_map.mp hmem
  exact hc e he haddr

lemma opened_failed (hk : k ∈ s.conns) (hidle : ¬HasEndpoint s k.fd)
    (hfresh : (PollOp.addFd fdData s.dataType c.addr c.record).Fresh s.poll) (haddr : ∀ e ∈ s.eps, e.addr ≠ c.addr)
    (hsetup : setupEp belongs request k.fd fdData c.user s.sw = (.ok, sw)) (hrun : sw.trap = false) :
    DsInv ((opened s k request fdData c sw).closeEp c.addr) := by
  obtain ⟨hlists, hnum, hlt⟩ := opened_lists h hsetup hrun
  have haddrs := opened_addrs h haddr k request fdData sw
  have hrec : ∀ fd type privateData, HasRecord (opened s k request fdData c sw).poll fd type privateData ↔
      (fd = fdData ∧ type = s.dataType ∧ privateData = c.addr) ∨ HasRecord s.poll fd type privateData :=
    fun _ _ _ => hasRecord_addFd h.bag hfresh.2
  have hconns : ∀ k' ∈ s.conns, k'.fd ≠ fdData := by
    intro k' hk'
    obtain ⟨privateData, hreg⟩ := h.registered hk'
    exact hfresh.ne hreg
  have hbag : PollBag (opened s k request fdData c sw).poll := pollBag_apply h.bag hfresh
  have hbag' := pollBag_removeFd hbag fdData
  have hsize := pollSized_apply h.bag h.sized (.addFd fdData s.dataType c.addr c.record)
  set ep : DsEndpoint := ⟨c.addr, allocIndex request s.sw, k.fd, fdData, k.id⟩ with hep
  have hmem : ep ∈ (opened s k request fdData c sw).eps := mem_cons_self
  have honly : ∀ e ∈ (opened s k request fdData c sw).eps, e.fdCtl = ep.fdCtl → e = ep := by
    intro e he hfd
    rcases mem_cons.mp he with rfl | he
    · rfl
    · exact absurd ⟨e, he, hfd⟩ hidle
  have hport : ep.port < (opened s k request fdData c sw).sw.numports := by
    dsimp only [opened]
    rw [hnum]
    exact hlt
  obtain ⟨sw', heq, hnum', hlists'⟩ := close_found hlists haddrs hmem hport honly
  have hdel := heq.trans (delep_eq hbag h.types ((hrec _ _ _).mpr (.inr (h.idle k hk hidle)))
    ((hrec _ _ _).mpr (.inl ⟨rfl, rfl, rfl⟩)) hconns)
  have heps : (opened s k request fdData c sw).eps.filter (fun e => e.addr != ep.addr) = s.eps := by
    dsimp only [opened]
    rw [filter_cons_of_neg (by simp [hep])]
    refine filter_eq_self.mpr ?_
    intro e he
    exact bne_iff_ne.mpr (haddr e he)
  rw [heps] at hdel hlists'
  rw [DataSock.closeEp, show c.addr = ep.addr from rfl, ep_eq haddrs hmem]
  dsimp only
  rw [hdel]
  refine h.drop hk hidle (hnum'.trans hnum) ?_ (pollBag_removeFd hbag' _) ?_ ?_ (fun _ hc => .inr hc)
  · funext p
    exact (hlists' p).trans (h.lists p).symm
  · exact pollSized_apply hbag' (pollSized_apply hbag hsize (.removeFd fdData)) (.removeFd k.fd)
  intro fd type privateData
  rw [hasRecord_removeFd hbag', hasRecord_removeFd hbag, hrec]
  constructor
  · rintro ⟨hne, hne', ⟨rfl, -, -⟩ | hold⟩
    · exact absurd rfl hne'
    · exact ⟨hne, hold⟩
  rintro ⟨hne, hold⟩
  exact ⟨hne, hfresh.ne hold, .inr hold⟩

lemma opened_stored (hk : k ∈ s.conns) (hidle : ¬HasEndpoint s k.fd)
    (hfresh : (PollOp.addFd fdData s.dataType c.addr c.record).Fresh s.poll)
    (haddr : ∀ e ∈ s.eps, e.addr ≠ c.addr) (hvalid : c.addr ≠ 0)
    (hsetup : setupEp belongs request k.fd fdData c.user s.sw = (.ok, sw)) (hrun : sw.trap = false)
    (hidx : IndexRight (opened s k request fdData c sw).poll k.fd) :
    DsInv { opened s k request fdData c sw with
      poll := mainloopSetPrivateData k.fd c.addr (opened s k request fdData c sw).poll } := by
  obtain ⟨hlists, hnum, hlt⟩ := opened_lists h hsetup hrun
  have hopen : ∀ fd type privateData, HasRecord (opened s k request fdData c sw).poll fd type privateData ↔
      (fd = fdData ∧ type = s.dataType ∧ privateData = c.addr) ∨ HasRecord s.poll fd type privateData :=
    fun _ _ _ => hasRecord_addFd h.bag hfresh.2
  have hidleRec := h.idle k hk hidle
  have hbag : PollBag (opened s k request fdData c sw).poll := pollBag_apply h.bag hfresh
  have hsize := pollSized_apply h.bag h.sized (.addFd fdData s.dataType c.addr c.record)
  have hctl : HasRecord (opened s k request fdData c sw).poll k.fd s.wdType 0 := (hopen _ _ _).mpr (.inr hidleRec)
  have hrec : ∀ {fd type privateData}, HasRecord
      (mainloopSetPrivateData k.fd c.addr (opened s k request fdData c sw).poll) fd type privateData ↔ _ :=
    hasRecord_setPrivateData hbag hidx (hctl.sized hsize)
  -- what other descriptors have is kept
  have hother : ∀ {fd type privateData}, fd ≠ k.fd → HasRecord s.poll fd type privateData → HasRecord
      (mainloopSetPrivateData k.fd c.addr (opened s k request fdData c sw).poll) fd type privateData := by
    intro fd type privateData hne hold
    rw [hrec, if_neg hne]
    exact (hopen _ _ _).mpr (.inr hold)
  refine ⟨h.types, @pollBag_apply _ hbag (.setPrivateData k.fd c.addr) trivial,
    pollSized_apply hbag hsize (.setPrivateData k.fd c.addr), hlists, ?_, opened_addrs h haddr k request fdData sw,
    ?_, h.ids, h.fds, h.fresh, h.past, h.alive, ?_, ?_, ?_, ?_, ?_⟩
  · intro e he
    dsimp only [opened]
    rw [hnum]
    rcases mem_cons.mp he with rfl | he
    · exact hlt
    · exact h.ports e he
  · intro e he
    rcases mem_cons.mp he with rfl | he
    · exact hvalid
    · exact h.valid e he
  · intro e he
    rcases mem_cons.mp he with rfl | he
    · exact hk
    · exact h.conn e he
  · intro e he
    rcases mem_cons.mp he with rfl | he
    · rw [hrec, if_pos rfl]
      exact ⟨rfl, 0, hctl⟩
    · exact hother (fun heq => hidle ⟨e, he, heq⟩) (h.ctl e he)
  · intro e he
    rcases mem_cons.mp he with rfl | he
    · rw [hrec, if_neg (Ne.symm (hfresh.ne hidleRec))]
      exact (hopen _ _ _).mpr (.inl ⟨rfl, rfl, rfl⟩)
    · exact hother (Ne.symm (h.ne_data he hidleRec)) (h.data e he)
  · intro k' hk' hidle'
    have hne : k'.fd ≠ k.fd := by
      intro heq
      exact hidle' ⟨_, mem_cons_self, heq.symm⟩
    refine hother hne (h.idle k' hk' ?_)
    rintro ⟨e, he, hfd⟩
    exact hidle' ⟨e, mem_cons_of_mem _ he, hfd⟩
  · intro fd privateData hfd
    by_cases hne : fd = k.fd
    · exact ⟨k, hk, hne.symm⟩
    rw [hrec, if_neg hne, hopen] at hfd
    rcases hfd with ⟨-, htype, -⟩ | hold
    · exact absurd htype h.types
    · exact h.wd fd privateData hold

/-! ## Every step -/

lemma DsInv.setSw {sw : Switch} (hnum : sw.numports = s.sw.numports) (heps : sw.eps = s.sw.eps) :
    DsInv { s with sw := sw } :=
  h.quiet hnum heps h.bag h.sized (fun _ _ _ _ => Iff.rfl) h.past h.alive

lemma epclose_inv (port id : Int) : DsInv (s.closeEpPortFd port id) := by
  by_cases hep : ∃ e ∈ s.eps, (e.port : Int) = port ∧ (e.fdCtl : Int) = id
  · obtain ⟨e, he, rfl, rfl⟩ := hep
    refine (h.close he (s.closeEpPortFd e.port e.fdCtl).hung ?_).1
    rw [hung_closeEpPortFd]
    exact fun _ hc => .inr hc
  have hfind : s.eps.find? (DataSock.closes port id) = none := by
    refine find?_eq_none.mpr ?_
    intro e he hcloses
    simp only [DataSock.closes, Bool.and_eq_true, beq_iff_eq] at hcloses
    exact hep ⟨e, he, hcloses⟩
  have hsw : s.closeEpPortFd port id = { s with sw := (closeEpPortFd port id s.sw).2 } := by
    rw [DataSock.closeEpPortFd]
    generalize closeEpPortFd port id s.sw = r
    obtain ⟨rv, sw⟩ := r
    cases rv with
    | ok => rw [hfind]
    | _ => rfl
  rw [hsw]
  by_cases hrange : 0 ≤ port ∧ port < s.sw.numports
  · obtain ⟨p, rfl⟩ := Int.eq_ofNat_of_zero_le hrange.1
    obtain ⟨hnum, heps, -⟩ := closeEpPortFd_eps (s := s.sw) (p := p) id (by omega)
    refine h.setSw hnum ?_
    rw [heps, eraseP_eq_self_iff.mpr]
    · exact update_eq_self p s.sw.eps
    intro e he hfd
    rw [h.lists p] at he
    obtain ⟨e', he', rfl⟩ := mem_map.mp he
    rw [mem_filter, beq_iff_eq] at he'
    exact hep ⟨e', he'.1, by rw [he'.2], by simpa [DsEndpoint.toEndpoint] using hfd⟩
  have hout : closeEpPortFd port id s.sw = (.einval, s.sw) := by rw [closeEpPortFd, if_neg hrange]
  rw [hout]
  exact h

lemma others_inv {op : PollOp} (hlegal : DsEvent.Legal s (.poll op)) :
    DsInv { s with poll := op.apply s.poll } := by
  obtain ⟨hfresh, hown⟩ := hlegal
  have hset : ∀ fd privateData, op ≠ .setPrivateData fd privateData := by
    rintro fd privateData rfl
    exact hown
  refine h.quiet rfl rfl (pollBag_apply h.bag hfresh) (pollSized_apply h.bag h.sized op) ?_ h.past h.alive
  intro fd type privateData htype
  rw [hasRecord_apply h.bag hfresh hset]
  cases op with
  | addFd fd' type' privateData' a =>
    refine or_iff_right ?_
    rintro ⟨-, rfl, -⟩
    exact htype.elim hown.1 hown.2
  | removeFd fd' =>
    refine and_iff_right_of_imp ?_
    rintro hrec rfl
    obtain ⟨e, he, rfl, r, hr, rfl, -⟩ := hrec
    obtain ⟨i, hi, rfl⟩ := mem_entries.mp he
    have htypeAt : s.poll.typeAt i = some r.type := by
      rw [PollTable.typeAt]
      exact congrArg (Option.map PollPlus.type) hr
    obtain ⟨hwd, hdata⟩ := hown i hi rfl
    rw [htypeAt] at hwd hdata
    exact htype.elim (fun heq => hwd (by rw [heq])) (fun heq => hdata (by rw [heq]))
  | setPrivateData fd' privateData' => exact absurd rfl (hset fd' privateData')
  | _ => exact Iff.rfl

lemma DsInv.at (hi : i < s.poll.nfds) (htype : s.poll.typeAt i = some s.wdType) :
    ∃ k ∈ s.conns, (s.poll.fds i).fd = k.fd ∧
      ((∃ e ∈ s.eps, e.fdCtl = k.fd ∧ e.conn = k.id ∧ s.poll.privateDataAt i = e.addr) ∨
        (¬HasEndpoint s k.fd ∧ s.poll.privateDataAt i = 0)) := by
  obtain ⟨r, hr, hrtype⟩ := Option.map_eq_some_iff.mp htype
  have hrec := hasRecord_at hi hr
  rw [hrtype] at hrec
  have hdata : s.poll.privateDataAt i = r.privateData := by
    rw [PollTable.privateDataAt, hr]
    rfl
  obtain ⟨k, hk, hfd⟩ := h.wd _ _ hrec
  rw [← hfd] at hrec
  refine ⟨k, hk, hfd.symm, ?_⟩
  rw [hdata]
  by_cases hep : HasEndpoint s k.fd
  · obtain ⟨e, he, hefd⟩ := hep
    have hctl := h.ctl e he
    rw [hefd] at hctl
    have hconn := inj_on_of_nodup_map h.fds (h.conn e he) hk hefd
    exact .inl ⟨e, he, hefd, by rw [← hconn], (hrec.unique h.bag hctl).2⟩
  · exact .inr ⟨hep, (hrec.unique h.bag (h.idle k hk hep)).2⟩

lemma DsInv.giveUp {k : Conn} (hk : k ∈ s.conns) (hidle : ¬HasEndpoint s k.fd) (hung : List Nat)
    (hhung : ∀ c ∈ hung, c = k.id ∨ c ∈ s.hung) : DsInv { s.removeFd k.fd with hung := hung } := by
  rw [removeFd_eq (h.idle k hk hidle)]
  refine h.drop hk hidle rfl rfl (pollBag_removeFd h.bag k.fd) (pollSized_apply h.bag h.sized (.removeFd k.fd)) ?_ hhung
  exact fun _ _ _ => hasRecord_removeFd h.bag

end

lemma socket_of_fdData (h : c.fdData = some fdData) : c.socket = some fdData := by
  rw [NewPortCalls.fdData] at h
  split at h
  · exact absurd h (by simp)
  split at h
  · exact absurd h (by simp)
  next hsocket =>
  split at h
  · exact absurd h (by simp)
  split at h
  · exact absurd h (by simp)
  rw [hsocket]
  exact h

lemma newEndpoint_inv (h : DsInv s) (hk : k ∈ s.conns) (hfresh : c.Fresh s) (hdata : c.fdData = some fdData)
    (hidle : (setupEp belongs request k.fd fdData c.user s.sw).1 = .ok → ¬HasEndpoint s k.fd)
    (hidx : (setupEp belongs request k.fd fdData c.user s.sw).1 = .ok →
      c.bind = true ∧ c.chown = true ∧ c.write = true →
        ∀ sw, IndexRight (opened s k request fdData c sw).poll k.fd) :
    (storeEndpoint k.fd (newEndpoint belongs k.fd fdData request c s)).sw.trap = true ∨
      DsInv (storeEndpoint k.fd (newEndpoint belongs k.fd fdData request c s)) := by
  obtain ⟨hsocket, hvalid, haddr, hrecord⟩ := hfresh
  have hadd : (PollOp.addFd fdData s.dataType c.addr c.record).Fresh s.poll :=
    ⟨hsocket fdData (socket_of_fdData hdata), hrecord⟩
  rw [newEndpoint]
  cases hsetup : setupEp belongs request k.fd fdData c.user s.sw with
  | mk rv sw =>
    rw [hsetup] at hidle hidx
    by_cases hrv : rv = .ok
    · subst hrv
      dsimp only
      by_cases htrap : sw.trap = true
      · rw [if_pos htrap]
        exact .inl htrap
      rw [Bool.not_eq_true] at htrap
      rw [htrap, connOf_eq h.fds hk]
      right
      have hfailed := opened_failed h hk (hidle rfl) hadd haddr hsetup htrap
      cases hbind : c.bind with
      | false => exact hfailed
      | true =>
        cases hchown : c.chown with
        | false => exact hfailed
        | true =>
          cases hwrite : c.write with
          | false => exact hfailed
          | true =>
            exact opened_stored h hk (hidle rfl) hadd haddr hvalid hsetup htrap
              (hidx rfl ⟨hbind, hchown, hwrite⟩ sw)
    obtain ⟨hnum, heps⟩ := setupEp_refused belongs hsetup hrv
    right
    cases rv with
    | ok => exact absurd rfl hrv
    | _ => exact h.setSw hnum heps

lemma request_inv (h : DsInv s) (hk : k ∈ s.conns) (hi : i < s.poll.nfds) (hfd : (s.poll.fds i).fd = k.fd)
    {r : Request} (hfresh : c.Fresh s) (hsecond : HasEndpoint s k.fd → Refused belongs s k.fd r c)
    (hplaced : Granted belongs s k.fd r c → Placed s i) (ep : Nat) :
    (handleWd belongs k.fd ep s (.request r c)).sw.trap = true ∨
    DsInv (handleWd belongs k.fd ep s (.request r c)) := by
  -- a request that does not reach `setup_ep` ends the connection, which is idle
  have hend : (¬∃ request fdData, r.Asks c request fdData) → DsInv (s.removeFd k.fd) := by
    intro hnone
    refine h.giveUp hk ?_ (s.removeFd k.fd).hung ?_
    · intro hep
      obtain ⟨request, fdData, hasks, -⟩ := hsecond hep
      exact hnone ⟨request, fdData, hasks⟩
    rw [hung_removeFd]
    exact fun _ hc => .inr hc
  rw [handleWd]
  cases htp : r.typePort with
  | none =>
    right
    refine hend ?_
    rintro ⟨request, fdData, typePort, htp', -⟩
    rw [htp] at htp'
    exact absurd htp' (by simp)
  | some typePort =>
    dsimp only
    rw [newPortV1V3]
    cases hreq : portRequest typePort with
    | none =>
      right
      refine hend ?_
      rintro ⟨request, fdData, typePort', htp', hreq', -⟩
      rw [htp] at htp'
      rw [← Option.some.inj htp', hreq] at hreq'
      exact absurd hreq' (by simp)
    | some request =>
      cases hdata : c.fdData with
      | none =>
        right
        refine hend ?_
        rintro ⟨request', fdData, typePort', -, -, hdata'⟩
        rw [hdata] at hdata'
        exact absurd hdata' (by simp)
      | some fdData =>
        have hasks : r.Asks c request fdData := ⟨typePort, htp, hreq, hdata⟩
        refine newEndpoint_inv h hk hfresh hdata ?_ ?_
        · intro hok hep
          obtain ⟨request', fdData', ⟨typePort', htp', hreq', hdata'⟩, hne⟩ := hsecond hep
          rw [htp] at htp'
          rw [← Option.some.inj htp', hreq] at hreq'
          rw [hdata] at hdata'
          rw [← Option.some.inj hreq', ← Option.some.inj hdata'] at hne
          exact hne hok
        intro hok hrest sw
        obtain ⟨hprio, hindex⟩ := hplaced ⟨request, fdData, hasks, hok, hrest⟩
        rw [hfd] at hindex
        refine indexRight_addFd hi hfd hindex hprio ?_
        rw [← hfd]
        exact hfresh.1 fdData (socket_of_fdData hdata) i hi

lemma read_inv (h : DsInv s) {input : WdRead} (hlegal : DsEvent.Legal s (.read i input))
    (horder : Orderly belongs s (.read i input)) :
    (dsStep belongs s (.read i input)).sw.trap = true ∨ DsInv (dsStep belongs s (.read i input)) := by
  obtain ⟨hi, htype, hinput⟩ := hlegal
  obtain ⟨k, hk, hfd, hrecord⟩ := h.at hi htype
  dsimp only [dsStep]
  rw [hfd]
  cases input with
  | error =>
    right
    rw [Orderly, hfd] at horder
    refine h.giveUp hk horder (s.removeFd k.fd).hung ?_
    rw [hung_removeFd]
    exact fun _ hc => .inr hc
  | again => exact .inr h
  | eof =>
    right
    rw [if_pos rfl, connOf_eq h.fds hk]
    rcases hrecord with ⟨e, he, hefd, hconn, hdata⟩ | ⟨hidle, hdata⟩
    · rw [hdata, handleWd, if_pos (h.valid e he), DataSock.closeEp, ep_eq h.addrs he]
      refine (h.close he _ ?_).1
      dsimp only
      rw [hung_closeEpPortFd, hconn]
      exact fun c hc => mem_cons.mp hc
    rw [hdata, handleWd, if_neg (by simp)]
    refine h.giveUp hk hidle _ ?_
    rw [hung_removeFd]
    exact fun c hc => mem_cons.mp hc
  | request r c =>
    obtain ⟨hsecond, hplaced⟩ := horder
    rw [hfd] at hsecond hplaced
    exact request_inv h hk hi hfd hinput hsecond hplaced (s.poll.privateDataAt i)

lemma dsStep_inv (h : DsInv s) {e : DsEvent} (hlegal : e.Legal s) (horder : Orderly belongs s e) :
    (dsStep belongs s e).sw.trap = true ∨ DsInv (dsStep belongs s e) := by
  cases e with
  | connect new a => exact .inr (handleCtl_inv h hlegal)
  | read i input => exact read_inv h hlegal horder
  | left conn =>
    right
    refine h.quiet rfl rfl h.bag h.sized (fun _ _ _ _ => Iff.rfl) ?_ ?_
    · intro c hc
      rcases mem_cons.mp hc with rfl | hc
      · exact hlegal.1
      · exact h.past c hc
    intro k hk hmem
    rcases mem_cons.mp hmem with heq | hmem
    · exact hlegal.2 k hk heq
    · exact h.alive k hk hmem
  | epclose port id => exact .inr (epclose_inv h port id)
  | poll op => exact .inr (others_inv h hlegal)

lemma DsStart.inv (h : DsStart s) : DsInv s := by
  obtain ⟨⟨numports, switchmac, priority, hub, fstp, hashSize, now, -, -, -, -, -, hsw⟩, htypes, hpoll, heps, hconns,
    hhung⟩ := h
  have hentries : s.poll.entries = [] := by
    rw [hpoll]
    rfl
  have hnone : ∀ fd type privateData, ¬HasRecord s.poll fd type privateData := by
    rintro fd type privateData ⟨e, he, -⟩
    rw [hentries] at he
    exact absurd he not_mem_nil
  refine ⟨htypes, ⟨?_, ?_, ?_, ?_⟩, ?_, ?_, ?_, ?_, ?_, ?_, ?_, ?_, ?_, ?_, ?_, ?_, ?_, ?_, ?_⟩
  · simp [hentries]
  · simp [hentries]
  · simp [hentries]
  · rw [hentries, hpoll]
    rfl
  · simp [PollSized, hentries]
  · intro p
    rw [heps, hsw, portInit_eps]
    rfl
  · simp [heps]
  · simp [heps]
  · simp [heps]
  · simp [hconns]
  · simp [hconns]
  · simp [hconns]
  · simp [hhung]
  · simp [hconns]
  · simp [heps]
  · simp [heps]
  · simp [heps]
  · simp [hconns]
  · exact fun fd privateData hrec => absurd hrec (hnone fd _ privateData)

/-- In every orderly run every endpoint has a control descriptor of its own, `close_ep` unlinks
exactly its argument, and an endpoint does not outlive its connection. -/
theorem endpoints_follow_connections (belongs : BitVec 32 → BitVec 32 → Bool) {s : DataSock} (hs : DsStart s)
    (es : List DsEvent)
    (hes : (dsMachine belongs).Along (fun s e => (dsMachine belongs).enabled s e ∧ Orderly belongs s e) s es) :
    (dsMachine belongs).Always (fun s => s.sw.trap = false → DsOk s) s es := by
  refine hes.always (fun s => s.sw.trap = true ∨ DsInv s) ?_ ?_ (.inr hs.inv)
  · intro s hinv hrun
    rcases hinv with htrap | hinv
    · exact absurd htrap (by simp [hrun])
    · exact hinv.ok
  rintro s e hinv ⟨⟨hrun, hlegal⟩, horder⟩
  rcases hinv with htrap | hinv
  · exact absurd htrap (by simp [hrun])
  · exact dsStep_inv hinv hlegal horder

end

def freshDataSock : DataSock := ⟨0x01#8, 0x82#8, freshSwitch false, pollTableInit, [], [], 0, []⟩

def portAsked (fdData addr record : Nat) : WdRead :=
  .request ⟨switchMagic, 3#32, 0#32⟩ ⟨true, true, 0#32, some fdData, true, true, true, true, true, addr, record⟩

def firstRequest : List DsEvent := [.poll (.addFd 3 0x00#8 0 100), .connect 5 101, .read 1 (portAsked 6 1000 102)]

lemma firstRequest_enabled : (dsMachine noGroups).Along (dsMachine noGroups).enabled freshDataSock firstRequest := by
  refine ⟨⟨rfl, ⟨?_, rfl⟩, by decide⟩, ⟨rfl, by decide +kernel, by decide +kernel⟩,
    ⟨rfl, by decide +kernel, by decide +kernel, ?_, by decide, ?_, by decide +kernel⟩, trivial⟩
  · exact fun i hi => absurd hi (Nat.not_lt_zero i)
  · rintro fdData ⟨⟩
    decide +kernel
  · exact fun e he => absurd he not_mem_nil

/-- The client hangs up, and its endpoint is gone. -/
theorem endpoints_follow_connections_one : (dsMachine noGroups).Always (fun s => s.sw.trap = false → DsOk s)
    freshDataSock (firstRequest ++ [.read 1 .eof]) := by
  have hstart : DsStart freshDataSock := ⟨freshSwitch_start false, by decide, rfl, rfl, rfl, rfl⟩
  refine endpoints_follow_connections noGroups hstart _ (.and ?_ ?_)
  · refine firstRequest_enabled.append ⟨⟨by decide +kernel, by decide +kernel, by decide +kernel, trivial⟩, trivial⟩
  refine ⟨trivial, trivial, ⟨?_, ?_⟩, trivial, trivial⟩
  · rintro ⟨e, he, -⟩
    exact absurd he not_mem_nil
  intro _
  exact ⟨by decide +kernel, by decide +kernel⟩

/-- A client that asks for two ports on one connection and hangs up leaves an endpoint behind. -/
theorem second_request_leaves_endpoint :
    DsStart freshDataSock ∧
      (dsMachine noGroups).Along (dsMachine noGroups).enabled freshDataSock
        (firstRequest ++ [.read 1 (portAsked 7 2000 103), .read 3 .eof]) ∧
      ¬(dsMachine noGroups).Always (fun s => s.sw.trap = false → DsOk s) freshDataSock
        (firstRequest ++ [.read 1 (portAsked 7 2000 103), .read 3 .eof]) := by
  refine ⟨⟨freshSwitch_start false, by decide, rfl, rfl, rfl, rfl⟩, ?_, ?_⟩
  · refine firstRequest_enabled.append ⟨⟨by decide +kernel, by decide +kernel, by decide +kernel, ?_, by decide,
      by decide +kernel, by decide +kernel⟩, ⟨by decide +kernel, by decide +kernel, by decide +kernel, trivial⟩, trivial⟩
    rintro fdData ⟨⟩
    decide +kernel
  intro h
  have hok := h.last (by decide +kernel)
  exact absurd (hok.gone ⟨2000, 2, 5, 7, 0⟩ (by decide +kernel)) (by decide +kernel)

end Vde
