import Vde.Proofs.PacketHeap
import Vde.Proofs.PollMasks

/-!
# Packets through the queues

Packets are sent to the endpoints, queues are worked off, endpoints come and go and the poll tables
change, in any order. For every endpoint the packets that its sender took, followed by those in its
queue, are the packets offered without those skipped; and `POLLOUT` is asked for exactly while
something waits, as long as `fdperm` is right when the poll mask is changed.
-/

namespace Vde

open List Function

/-- An endpoint is opened or closed, the length of its queue is set, a packet is sent to the
endpoints `targets`, the packets of a queue are tried again, or the poll tables are used for
something else. -/
inductive PqEvent where
  | openEp (id fdCtl fdData : Nat) (type : BitVec 8) (a stdqlen : Nat)
  | send (m : Malloc) (blocks : Nat → Bool) (packet : List UInt8) (targets : List Nat)
  | out (id : Nat) (blocks : Nat → Bool)
  | setqlen (id len : Nat)
  | close (id : Nat)
  | poll (op : PollOp)

def pqStep (s : PqState) : PqEvent → PqState
  | .openEp id fdCtl fdData type a stdqlen => openEp s id fdCtl fdData type a stdqlen
  | .send m blocks packet targets => sendPacketQueued m blocks packet 0 none targets s
  | .out id blocks =>
    match s.ep id with
    | none => s
    | some ep => handleOutPacket blocks s ep
  | .setqlen id len =>
    match s.ep id with
    | none => s
    | some ep => setqlenEp s ep len
  | .close id =>
    match s.ep id with
    | none => s
    | some ep => closeEp s ep
  | .poll op => { s with poll := op.apply s.poll }

/-- A descriptor is added when it is not present and its record is free, the data descriptor of an
endpoint is removed only with it, and no one else changes poll masks. -/
def pqMachine : Machine PqState PqEvent where
  enabled s
    | .openEp id _ fdData _ a _ => (∀ e ∈ s.eps, e.id ≠ id) ∧
        (∀ i < s.poll.nfds, (s.poll.fds i).fd ≠ fdData) ∧ s.poll.pp a = none
    | .poll (.addFd fd _ _ a) => (∀ i < s.poll.nfds, (s.poll.fds i).fd ≠ fd) ∧ s.poll.pp a = none
    | .poll (.removeFd fd) => ∀ e ∈ s.eps, e.fdData ≠ fd
    | .poll (.pollmask _ _) => False
    | _ => True
  step := pqStep

def pqStart : PqState := ⟨⟨fun _ => none, fun _ => none⟩, [], pollTableInit⟩

def PqState.ids (s : PqState) : List Nat := s.eps.map PqEndpoint.id

/-- What holds of an endpoint with the queue `xs`: `vdepq_count` is its length, the packets offered
were taken in their order or wait, and a packet was skipped only because the queue was full or there
was no memory. -/
structure EndpointOk (s : PqState) (e : PqEndpoint) (xs : List (Nat × Nat)) : Prop where
  queue : IsRing s.heap.elems e.vdepq xs
  count : e.vdepqCount = xs.length
  order : e.taken ++ waiting s.heap xs =
    (e.offers.filter (fun o => !o.skipped)).map QueueOffer.packet
  skips : ∀ o ∈ e.offers, o.skipped = true → o.max ≤ o.count ∨ o.refused = true

/-- What holds of all endpoints and of the buffers: a buffer counts the elements that refer to it
and is there exactly as long as there are any. -/
structure PqOk (s : PqState) : Prop where
  ids : s.ids.Nodup
  queues : ∃ q : QueueMap, (∀ e ∈ s.eps, EndpointOk s e (q e.id)) ∧
    ∀ b, (s.heap.bufs b = none ↔ refs s.ids q b = 0) ∧
      ∀ pb, s.heap.bufs b = some pb → pb.count = refs s.ids q b

/-- `POLLOUT` is asked for, for the data descriptor of each endpoint, if and only if its
`vdepq_count` is positive. -/
def PolloutOk (s : PqState) : Prop :=
  ∀ e ∈ s.eps, (∃ events, HasMask s.poll e.fdData events) ∧
    ∀ events, HasMask s.poll e.fdData events → (events &&& pollOut ≠ 0 ↔ 0 < e.vdepqCount)

def FewTargets : PqEvent → Prop
  | .send _ _ _ targets => targets.length ≤ 32767
  | _ => True

/-- `fdperm` is right for the data descriptors whose poll mask may be changed, and the control
descriptor of an endpoint that is closed is not the data descriptor of another one. -/
def IndexesRight (s : PqState) : PqEvent → Prop
  | .send _ _ _ targets => ∀ e ∈ s.eps, e.id ∈ targets → IndexRight s.poll e.fdData
  | .out id _ => ∀ e ∈ s.eps, e.id = id → IndexRight s.poll e.fdData
  | .close id => ∀ e ∈ s.eps, e.id = id → ∀ e' ∈ s.eps, e'.id ≠ id → e'.fdData ≠ e.fdCtl
  | _ => True

/-- The part of the invariant that is about one endpoint. The poll masks are followed only if
`polls` holds. -/
structure EpInv (polls : Prop) (h : PqHeap) (poll : PollTable) (e : PqEndpoint)
    (xs : List (Nat × Nat)) : Prop where
  tail : e.vdepq = tailOf xs
  count : e.vdepqCount = xs.length
  pollout : polls → ∃ events, HasMask poll e.fdData events ∧ (events &&& pollOut ≠ 0 ↔ 0 < e.vdepqCount)
  order : e.taken ++ waiting h xs = (e.offers.filter (fun o => !o.skipped)).map QueueOffer.packet
  skips : ∀ o ∈ e.offers, o.skipped = true → o.max ≤ o.count ∨ o.refused = true

structure PqInv (polls : Prop) (s : PqState) (q : QueueMap) : Prop where
  ids : s.ids.Nodup
  datas : polls → (s.eps.map PqEndpoint.fdData).Nodup
  queues : Queues s.heap s.ids q
  bag : PollBag s.poll
  eps : ∀ e ∈ s.eps, EpInv polls s.heap s.poll e (q e.id)

variable {polls : Prop}

variable {s : PqState} {q : QueueMap}

lemma PqInv.ok (h : PqInv polls s q) : PqOk s := by
  refine ⟨h.ids, q, ?_, ?_⟩
  · intro e he
    have hinv := h.eps e he
    refine ⟨?_, hinv.count, hinv.order, hinv.skips⟩
    rw [hinv.tail]
    exact h.queues.ring e.id (mem_map.mpr ⟨e, he, rfl⟩)
  intro b
  exact ⟨h.queues.buf_none b, fun pb hpb => (h.queues.buf_count hpb).1⟩

lemma PqInv.pollout (h : PqInv polls s q) (hp : polls) : PolloutOk s := by
  intro e he
  obtain ⟨events, hmask, hiff⟩ := (h.eps e he).pollout hp
  refine ⟨⟨events, hmask⟩, ?_⟩
  intro events' hmask'
  rw [← hmask.unique h.bag hmask']
  exact hiff

variable {ep : PqEndpoint}

lemma PqState.mem_of_ep {id : Nat} (h : s.ep id = some ep) : ep ∈ s.eps ∧ ep.id = id := by
  refine ⟨mem_of_find?_eq_some h, ?_⟩
  simpa using find?_some h

lemma mem_setEp {e : PqEndpoint} {eps : List PqEndpoint} (h : e ∈ setEp ep eps) :
    (e = ep ∧ ∃ e₀ ∈ eps, e₀.id = ep.id) ∨ (e ∈ eps ∧ e.id ≠ ep.id) := by
  rw [setEp, mem_map] at h
  obtain ⟨e₀, he₀, heq⟩ := h
  by_cases hid : e₀.id = ep.id
  · rw [if_pos hid] at heq
    exact .inl ⟨heq.symm, e₀, he₀, hid⟩
  rw [if_neg hid] at heq
  subst heq
  exact .inr ⟨he₀, hid⟩

variable {ep' : PqEndpoint}

lemma setEp_map {β : Type} {f : PqEndpoint → β} {eps : List PqEndpoint} (hnodup : (eps.map PqEndpoint.id).Nodup)
    (hep : ep ∈ eps) (hid : ep'.id = ep.id) (hf : f ep' = f ep) : (setEp ep' eps).map f = eps.map f := by
  rw [setEp, map_map]
  apply map_congr_left
  intro e he
  rw [comp_apply]
  by_cases heid : e.id = ep'.id
  · rw [if_pos heid, hf, inj_on_of_nodup_map hnodup he hep (heid.trans hid)]
  · rw [if_neg heid]

section

variable (h : PqInv polls s q) (hep : ep ∈ s.eps) (hid : ep'.id = ep.id) (hfd : ep'.fdData = ep.fdData)

include h hep hid hfd

lemma PqInv.change {heap : PqHeap} {poll : PollTable} {xs : List (Nat × Nat)}
    (hq : Queues heap s.ids (update q ep.id xs)) (hbag : PollBag poll) (hinv : EpInv polls heap poll ep' xs)
    (hwait : ∀ e ∈ s.eps, e.id ≠ ep.id → waiting heap (q e.id) = waiting s.heap (q e.id))
    (hmask : polls → ∀ fd events, fd ≠ ep.fdData → HasMask s.poll fd events → HasMask poll fd events) :
    PqInv polls ⟨heap, setEp ep' s.eps, poll⟩ (update q ep.id xs) := by
  have hids : (setEp ep' s.eps).map PqEndpoint.id = s.ids := setEp_map h.ids hep hid hid
  refine ⟨?_, ?_, ?_, hbag, ?_⟩
  · rw [PqState.ids, hids]
    exact h.ids
  · intro hp
    rw [setEp_map h.ids hep hid hfd]
    exact h.datas hp
  · rw [PqState.ids, hids]
    exact hq
  · intro e he
    rcases mem_setEp he with ⟨rfl, -⟩ | ⟨he, hne⟩
    · rw [hid, update_self]
      exact hinv
    rw [hid] at hne
    have hold := h.eps e he
    rw [update_of_ne hne]
    refine ⟨hold.tail, hold.count, ?_, ?_, hold.skips⟩
    · intro hp
      obtain ⟨events, hm, hiff⟩ := hold.pollout hp
      have hfde : e.fdData ≠ ep.fdData := by
        intro heq
        exact hne (congrArg PqEndpoint.id (inj_on_of_nodup_map (h.datas hp) he hep heq))
      exact ⟨events, hmask hp _ _ hfde hm, hiff⟩
    rw [hwait e he hne]
    exact hold.order

lemma PqInv.change_same {poll : PollTable} (hbag : PollBag poll) (hinv : EpInv polls s.heap poll ep' (q ep.id))
    (hmask : polls → ∀ fd events, fd ≠ ep.fdData → HasMask s.poll fd events → HasMask poll fd events) :
    PqInv polls ⟨s.heap, setEp ep' s.eps, poll⟩ q := by
  have hsame : update q ep.id (q ep.id) = q := update_eq_self _ _
  have hqueues : Queues s.heap s.ids (update q ep.id (q ep.id)) := by
    rw [hsame]
    exact h.queues
  have hchange := h.change hep hid hfd hqueues hbag hinv (fun _ _ _ => rfl) hmask
  rw [hsame] at hchange
  exact hchange

end

lemma pollOut_added (events : BitVec 16) : (events ||| pollOut) &&& pollOut ≠ 0 := by
  have hsame : (events ||| pollOut) &&& pollOut = pollOut := by
    ext i hi
    simp only [BitVec.getElem_and, BitVec.getElem_or]
    cases pollOut[i] with
    | true => simp
    | false => simp
  rw [hsame]
  decide

lemma pollOut_deleted (events : BitVec 16) : (events &&& ~~~pollOut) &&& pollOut = 0 := by
  ext i hi
  simp

variable {t : PollTable} {fd : Nat}

lemma indexRight_pollmask (h : IndexRight t fd) (f : BitVec 16 → BitVec 16)
    (fd' : Nat) : IndexRight (mainloopPollmask f fd' t) fd := by
  obtain ⟨i, hi, hfd, hperm⟩ := h
  refine ⟨i, hi, ?_, hperm⟩
  simp only [mainloopPollmask]
  by_cases hij : i = (t.fdperm fd').toNat
  · subst hij
    rw [update_self]
    exact hfd
  rw [update_of_ne hij]
  exact hfd

lemma pollmask_if (h : PollBag t) (hidx : IndexRight t fd)
    (f : BitVec 16 → BitVec 16) (c : Prop) [Decidable c] :
    (∀ fd' events, fd' ≠ fd → HasMask t fd' events →
      HasMask (if c then mainloopPollmask f fd t else t) fd' events) ∧
    ∀ events, HasMask t fd events →
      HasMask (if c then mainloopPollmask f fd t else t) fd (if c then f events else events) := by
  by_cases hc : c
  · simp only [if_pos hc]
    constructor
    · intro fd' events hne hm
      have hnew := hasMask_pollmask h hidx f hm
      rwa [if_neg hne] at hnew
    intro events hm
    have hnew := hasMask_pollmask h hidx f hm
    rwa [if_pos rfl] at hnew
  simp only [if_neg hc]
  exact ⟨fun _ _ _ hm => hm, fun _ hm => hm⟩

lemma pollBag_if (h : PollBag t) (f : BitVec 16 → BitVec 16) (fd : Nat) (c : Prop)
    [Decidable c] : PollBag (if c then mainloopPollmask f fd t else t) := by
  by_cases hc : c
  · rw [if_pos hc]
    exact pollBag_pollmask h f fd
  rw [if_neg hc]
  exact h

lemma pollout_add (h : PollBag t) (hidx : IndexRight t fd) {count : Int} {added : Nat} (hadded : added ≤ 1)
    (hpos : 0 ≤ count) {events : BitVec 16} (hm : HasMask t fd events) (hiff : events &&& pollOut ≠ 0 ↔ 0 < count) :
    ∃ events', HasMask (if count + added = 1 then mainloopPollmaskAdd fd pollOut t else t) fd events' ∧
    (events' &&& pollOut ≠ 0 ↔ 0 < count + added) := by
  obtain ⟨-, hown⟩ := pollmask_if h hidx (fun e => e ||| pollOut) (count + added = 1)
  refine ⟨_, hown events hm, ?_⟩
  by_cases h1 : count + added = 1
  · rw [if_pos h1]
    exact iff_of_true (pollOut_added events) (by omega)
  rw [if_neg h1, hiff]
  omega

section

variable (h : PqInv polls s q) (hep : ep ∈ s.eps)

include h hep

lemma queuePacket_skip (hidx : polls → IndexRight s.poll ep.fdData) (packet : List UInt8) (tmp : Option Nat) :
    PqInv polls (queuePacket packet ⟨s.heap, ep.vdepq, tmp, 0⟩ s ep) q := by
  have hinv := h.eps ep hep
  have hcount := hinv.count
  have hbag := pollBag_if h.bag (fun e => e ||| pollOut) ep.fdData (ep.vdepqCount + (0 : Nat) = 1)
  have hothers := fun hp => (pollmask_if h.bag (hidx hp) (fun e => e ||| pollOut)
    (ep.vdepqCount + (0 : Nat) = 1)).1
  refine h.change_same hep ?_ ?_ hbag ?_ hothers
  · rfl
  · rfl
  refine ⟨hinv.tail, ?_, ?_, ?_, ?_⟩
  · dsimp only
    omega
  · intro hp
    obtain ⟨events, hmask, hiff⟩ := hinv.pollout hp
    exact pollout_add h.bag (hidx hp) (Nat.zero_le 1) (by omega) hmask hiff
  · have horder := hinv.order
    simpa using horder
  · intro o ho hs
    rcases mem_append.mp ho with ho | ho
    · exact hinv.skips o ho hs
    rw [mem_singleton.mp ho]
    by_cases hroom : ep.vdepqCount < ep.vdepqMax
    · exact .inr (by simp [hroom])
    · exact .inl (by dsimp only; omega)

lemma queuePacket_add (hidx : polls → IndexRight s.poll ep.fdData) {packet : List UInt8} {heap : PqHeap}
    {new b : Nat} (hq : Queues heap s.ids (update q ep.id (q ep.id ++ [(new, b)])))
    (hpacket : bufPacket heap.bufs b = packet)
    (hkeep : ∀ b', s.heap.bufs b' ≠ none → bufPacket heap.bufs b' = bufPacket s.heap.bufs b') :
    PqInv polls (queuePacket packet ⟨heap, some new, some b, 1⟩ s ep) (update q ep.id (q ep.id ++ [(new, b)])) := by
  have hinv := h.eps ep hep
  have hcount := hinv.count
  have hbag := pollBag_if h.bag (fun e => e ||| pollOut) ep.fdData (ep.vdepqCount + (1 : Nat) = 1)
  have hothers := fun hp => (pollmask_if h.bag (hidx hp) (fun e => e ||| pollOut)
    (ep.vdepqCount + (1 : Nat) = 1)).1
  -- the packets that wait already are where they were
  have hwait : ∀ e ∈ s.eps, waiting heap (q e.id) = waiting s.heap (q e.id) := by
    intro e he
    refine waiting_congr h.ids (mem_map.mpr ⟨e, he, rfl⟩) ?_ (fun x hx => hx)
    intro b' hne
    exact hkeep b' (fun hnone => hne ((h.queues.buf_none b').mp hnone))
  refine h.change hep ?_ ?_ hq hbag ?_ (fun e he _ => hwait e he) hothers
  · rfl
  · rfl
  refine ⟨by simp [tailOf], ?_, ?_, ?_, ?_⟩
  · dsimp only
    rw [hcount, length_append, length_singleton]
    push_cast
    rfl
  · intro hp
    obtain ⟨events, hmask, hiff⟩ := hinv.pollout hp
    exact pollout_add h.bag (hidx hp) (Nat.le_refl 1) (by omega) hmask hiff
  · have horder := hinv.order
    have hnew : waiting heap (q ep.id ++ [(new, b)]) = waiting s.heap (q ep.id) ++ [packet] := by
      rw [waiting, map_append, ← waiting, hwait ep hep, map_singleton, hpacket]
    rw [hnew, ← append_assoc, horder]
    simp
  · intro o ho hs
    rcases mem_append.mp ho with ho | ho
    · exact hinv.skips o ho hs
    rw [mem_singleton.mp ho] at hs
    exact absurd hs (by simp)

lemma sendEndpoint_taken
    (hzero : ep.vdepqCount = 0) (packet : List UInt8) (offer : QueueOffer) (hoffer : offer.packet = packet)
    (hskip : offer.skipped = false) :
    PqInv polls { s with eps := setEp { ep with offers := ep.offers ++ [offer], taken := ep.taken ++ [packet] } s.eps }
      q := by
  have hinv := h.eps ep hep
  have hempty : q ep.id = [] := by
    have hcount := hinv.count
    rw [hzero] at hcount
    exact eq_nil_of_length_eq_zero (by omega)
  refine h.change_same hep ?_ ?_ h.bag ?_ (fun _ _ _ _ hm => hm)
  · rfl
  · rfl
  refine ⟨hinv.tail, hinv.count, hinv.pollout, ?_, ?_⟩
  · have horder := hinv.order
    rw [hempty] at horder ⊢
    simpa [waiting, hoffer, hskip] using horder
  intro o ho hs
  rcases mem_append.mp ho with ho | ho
  · exact hinv.skips o ho hs
  rw [mem_singleton.mp ho, hskip] at hs
  exact absurd hs (by simp)

lemma sendEndpoint_inv
    (hidx : polls → IndexRight s.poll ep.fdData) (m : Malloc) (blocks : Nat → Bool) (packet : List UInt8) {k : Nat}
    (hk : k < 32767) {tmp : Option Nat} (htmp : TmpOk s.heap s.ids q packet k tmp) :
    ∃ q', PqInv polls (sendEndpoint m blocks packet k tmp s ep).1 q' ∧
      TmpOk (sendEndpoint m blocks packet k tmp s ep).1.heap s.ids q' packet (k + 1)
        (sendEndpoint m blocks packet k tmp s ep).2 := by
  have hinv := h.eps ep hep
  have hi : ep.id ∈ s.ids := mem_map.mpr ⟨ep, hep, rfl⟩
  have htmp' : TmpOk s.heap s.ids q packet (k + 1) tmp := by
    intro b hb
    obtain ⟨hpacket, hle⟩ := htmp b hb
    exact ⟨hpacket, by omega⟩
  rw [sendEndpoint]
  by_cases hblock : ep.vdepqCount ≠ 0 ∨ blocks k = true
  · rw [if_pos hblock]
    dsimp only
    by_cases hroom : ep.vdepqCount < ep.vdepqMax
    · rw [if_pos hroom]
      rcases vdepqAdd_spec h.queues h.ids hi m hk packet htmp with hnone |
        ⟨new, b, heap, hadd, hq, hbuf, hpacket, hkeep⟩
      · rw [hinv.tail, hnone, ← hinv.tail]
        exact ⟨q, queuePacket_skip h hep hidx packet tmp, htmp'⟩
      rw [hinv.tail, hadd]
      exact ⟨_, queuePacket_add h hep hidx hq hpacket hkeep, hbuf⟩
    rw [if_neg hroom]
    exact ⟨q, queuePacket_skip h hep hidx packet tmp, htmp'⟩
  rw [if_neg hblock]
  have hzero : ep.vdepqCount = 0 := by
    by_contra hne
    exact hblock (.inl hne)
  exact ⟨q, sendEndpoint_taken h hep hzero packet _ rfl rfl, htmp'⟩

end

lemma sendEndpoint_frame (s : PqState) (ep : PqEndpoint) (m : Malloc) (blocks : Nat → Bool)
    (packet : List UInt8) (k : Nat) (tmp : Option Nat) :
    (∃ ep', (sendEndpoint m blocks packet k tmp s ep).1.eps = setEp ep' s.eps ∧ ep'.id = ep.id ∧
      ep'.fdData = ep.fdData) ∧
    ∀ fd, IndexRight s.poll fd → IndexRight (sendEndpoint m blocks packet k tmp s ep).1.poll fd := by
  have hqueue : ∀ r fd, IndexRight s.poll fd → IndexRight (queuePacket packet r s ep).poll fd := by
    intro r fd hidx
    dsimp only [queuePacket]
    by_cases h1 : ep.vdepqCount + r.added = 1
    · rw [if_pos h1]
      exact indexRight_pollmask hidx _ _
    rw [if_neg h1]
    exact hidx
  rw [sendEndpoint]
  split
  · exact ⟨⟨_, rfl, rfl, rfl⟩, hqueue _⟩
  · exact ⟨⟨_, rfl, rfl, rfl⟩, fun _ hidx => hidx⟩

lemma sendPacketQueued_inv (m : Malloc) (blocks : Nat → Bool) (packet : List UInt8) (targets : List Nat)
    (k : Nat) (hk : k + targets.length ≤ 32767) (h : PqInv polls s q)
    (hidx : polls → ∀ e ∈ s.eps, e.id ∈ targets → IndexRight s.poll e.fdData) {tmp : Option Nat}
    (htmp : TmpOk s.heap s.ids q packet k tmp) :
    ∃ q', PqInv polls (sendPacketQueued m blocks packet k tmp targets s) q' := by
  induction targets generalizing k s q tmp with
  | nil => exact ⟨q, h⟩
  | cons id targets ih =>
    rw [length_cons] at hk
    rw [sendPacketQueued]
    cases hfind : s.ep id with
    | none =>
      refine ih (k + 1) (by omega) h (fun hp e he hmem => hidx hp e he (mem_cons_of_mem _ hmem)) ?_
      intro b hb
      obtain ⟨hpacket, hle⟩ := htmp b hb
      exact ⟨hpacket, by omega⟩
    | some ep =>
      obtain ⟨hep, hid⟩ := PqState.mem_of_ep hfind
      dsimp only
      have hown : polls → IndexRight s.poll ep.fdData := fun hp =>
        hidx hp ep hep (by rw [hid]; exact mem_cons_self)
      obtain ⟨q', hinv, htmp'⟩ := sendEndpoint_inv h hep hown m blocks packet (by omega) htmp
      obtain ⟨⟨ep', heps, hid', hfd'⟩, hindex⟩ := sendEndpoint_frame s ep m blocks packet k tmp
      have hids : (sendEndpoint m blocks packet k tmp s ep).1.ids = s.ids := by
        rw [PqState.ids, heps]
        exact setEp_map h.ids hep hid' hid'
      refine ih (k + 1) (by omega) hinv ?_ (by rw [hids]; exact htmp')
      intro hp e he hmem
      rw [heps] at he
      apply hindex
      rcases mem_setEp he with ⟨rfl, -⟩ | ⟨he, -⟩
      · rw [hfd']
        exact hown hp
      · exact hidx hp e he (mem_cons_of_mem _ hmem)

lemma handleOutPacket_inv (h : PqInv polls s q) (hep : ep ∈ s.eps) (hidx : polls → IndexRight s.poll ep.fdData)
    (blocks : Nat → Bool) : ∃ q', PqInv polls (handleOutPacket blocks s ep) q' := by
  have hinv := h.eps ep hep
  have hi : ep.id ∈ s.ids := mem_map.mpr ⟨ep, hep, rfl⟩
  have hcount := hinv.count
  obtain ⟨done, rest, hsplit, hsent, htail, hq, hkeep⟩ :=
    vdepqTry_spec h.ids hi blocks (q ep.id) 0 h.queues rfl
  have hturns : ep.vdepqCount.toNat = (q ep.id).length := by omega
  rw [handleOutPacket, hturns, hinv.tail, hsent]
  have hlen : (q ep.id).length = done.length + rest.length := by rw [hsplit, length_append]
  have hleft : ep.vdepqCount - ((waiting s.heap done).length : Int) = rest.length := by
    rw [waiting, length_map]
    omega
  have hbag := pollBag_if h.bag (fun e => e &&& ~~~pollOut) ep.fdData
    (ep.vdepqCount - ((waiting s.heap done).length : Int) = 0)
  have hothers := fun hp => (pollmask_if h.bag (hidx hp) (fun e => e &&& ~~~pollOut)
    (ep.vdepqCount - ((waiting s.heap done).length : Int) = 0)).1
  refine ⟨_, h.change hep ?_ ?_ hq hbag ?_ ?_ hothers⟩
  · rfl
  · rfl
  · refine ⟨htail, hleft, ?_, ?_, hinv.skips⟩
    · intro hp
      obtain ⟨events, hmask, hiff⟩ := hinv.pollout hp
      have hown := (pollmask_if h.bag (hidx hp) (fun e => e &&& ~~~pollOut)
        (ep.vdepqCount - ((waiting s.heap done).length : Int) = 0)).2
      refine ⟨_, hown events hmask, ?_⟩
      dsimp only
      rw [hleft]
      by_cases h0 : (rest.length : Int) = 0
      · rw [if_pos h0]
        exact iff_of_false (not_not.mpr (pollOut_deleted events)) (by omega)
      rw [if_neg h0, hiff]
      omega
    have horder := hinv.order
    have hrest : waiting (vdepqTry blocks (q ep.id).length 0 s.heap (tailOf (q ep.id))).heap rest =
        waiting s.heap rest := by
      refine waiting_congr h.ids hi hkeep ?_
      intro x hx
      rw [update_self]
      exact hx
    have hall : waiting s.heap (q ep.id) = waiting s.heap done ++ waiting s.heap rest := by
      rw [hsplit]
      exact map_append
    rw [hrest, append_assoc, ← hall]
    exact horder
  · intro e he hne
    refine waiting_congr h.ids (mem_map.mpr ⟨e, he, rfl⟩) hkeep ?_
    intro x hx
    rw [update_of_ne hne]
    exact hx

lemma setqlenEp_inv (h : PqInv polls s q) (hep : ep ∈ s.eps) (len : Nat) : PqInv polls (setqlenEp s ep len) q := by
  have hinv := h.eps ep hep
  refine h.change_same hep ?_ ?_ h.bag ?_ (fun _ _ _ _ hm => hm)
  · rfl
  · rfl
  · exact ⟨hinv.tail, hinv.count, hinv.pollout, hinv.order, hinv.skips⟩

lemma refs_without (ids : List Nat) {i : Nat} (hempty : q i = []) (b : Nat) :
    refs (ids.filter (fun j => !decide (j = i))) q b = refs ids q b := by
  induction ids with
  | nil => rfl
  | cons j ids ih =>
    have hsplit : ∀ l : List Nat, refs (j :: l) q b = ((q j).map Prod.snd).count b + refs l q b :=
      fun l => by rw [refs, map_cons, sum_cons, refs]
    by_cases hji : j = i
    · rw [filter_cons_of_neg (by simp [hji]), ih, hsplit, hji, hempty]
      simp
    · rw [filter_cons_of_pos (by simp [hji]), hsplit, hsplit, ih]

lemma closeEp_inv (h : PqInv polls s q) (hep : ep ∈ s.eps)
    (hctl : polls → ∀ e ∈ s.eps, e.id ≠ ep.id → e.fdData ≠ ep.fdCtl) :
    PqInv polls (closeEp s ep) (update q ep.id []) := by
  have hinv := h.eps ep hep
  have hi : ep.id ∈ s.ids := mem_map.mpr ⟨ep, hep, rfl⟩
  have hturns : ep.vdepqCount.toNat = (q ep.id).length := by
    rw [hinv.count]
    exact Int.toNat_natCast _
  obtain ⟨hq, hkeep⟩ := vdepqDel_spec h.ids hi (q ep.id) h.queues rfl
  have hids : (closeEp s ep).ids = s.ids.filter (fun j => !decide (j = ep.id)) := by
    rw [PqState.ids, PqState.ids, filter_map]
    rfl
  have hsub : (s.eps.filter (fun e => !decide (e.id = ep.id))).Sublist s.eps := filter_sublist
  have hrefs := refs_without s.ids (q := update q ep.id []) (update_self ep.id [] q)
  refine ⟨?_, fun hp => (h.datas hp).sublist (hsub.map _), ?_, pollBag_removeFd (pollBag_removeFd h.bag _) _, ?_⟩
  · rw [hids]
    exact h.ids.sublist filter_sublist
  · rw [closeEp, hturns, hinv.tail]
    dsimp only
    have hmem : ∀ j ∈ s.ids.filter (fun j => !decide (j = ep.id)), j ∈ s.ids := fun j hj =>
      mem_of_mem_filter hj
    constructor
    · intro j hj
      exact hq.ring j (hmem j (hids ▸ hj))
    · intro j hj k hk
      exact hq.disjoint j (hmem j (hids ▸ hj)) k (hmem k (hids ▸ hk))
    · intro b
      have hb := hq.bufs b
      rw [← hrefs b, ← hids] at hb
      exact hb
    · intro b
      have hb := hq.few b
      rw [← hrefs b, ← hids] at hb
      exact hb
  intro e he
  obtain ⟨hmem, hne⟩ := mem_filter.mp he
  have hne : e.id ≠ ep.id := by simpa using hne
  have hold := h.eps e hmem
  rw [update_of_ne hne]
  refine ⟨hold.tail, hold.count, ?_, ?_, hold.skips⟩
  · intro hp
    obtain ⟨events, hm, hiff⟩ := hold.pollout hp
    have hdata : e.fdData ≠ ep.fdData := by
      intro heq
      exact hne (congrArg PqEndpoint.id (inj_on_of_nodup_map (h.datas hp) hmem hep heq))
    exact ⟨events, hasMask_removeFd (hasMask_removeFd hm hdata) (hctl hp e hmem hne), hiff⟩
  rw [closeEp, hturns, hinv.tail]
  dsimp only
  rw [waiting_congr h.ids (mem_map.mpr ⟨e, hmem, rfl⟩) hkeep ?_]
  · exact hold.order
  intro x hx
  rw [update_of_ne hne]
  exact hx

lemma openEp_inv (h : PqInv polls s q) {id fdCtl fdData : Nat} {type : BitVec 8} {a stdqlen : Nat}
    (hid : ∀ e ∈ s.eps, e.id ≠ id) (hfd : ∀ i < s.poll.nfds, (s.poll.fds i).fd ≠ fdData) (ha : s.poll.pp a = none) :
    PqInv polls (openEp s id fdCtl fdData type a stdqlen) (update q id []) := by
  have hfresh : id ∉ s.ids := by
    intro hmem
    obtain ⟨e, he, heq⟩ := mem_map.mp hmem
    exact hid e he heq
  have hids : (openEp s id fdCtl fdData type a stdqlen).ids = id :: s.ids := rfl
  have hrefs : ∀ b, refs (id :: s.ids) (update q id []) b = refs s.ids q b := by
    intro b
    rw [refs, map_cons, sum_cons, ← refs, refs_other hfresh, update_self]
    simp
  have hqueue : ∀ j ∈ s.ids, update q id [] j = q j := by
    intro j hj
    refine update_of_ne ?_ _ _
    rintro rfl
    exact hfresh hj
  refine ⟨?_, ?_, ?_, pollBag_addFd h.bag type id hfd ha, ?_⟩
  · rw [hids]
    exact nodup_cons.mpr ⟨hfresh, h.ids⟩
  · intro hp
    refine nodup_cons.mpr ⟨?_, h.datas hp⟩
    intro hmem
    obtain ⟨e, he, heq⟩ := mem_map.mp hmem
    obtain ⟨events, ⟨entry, hentry, hefd, -⟩, -⟩ := (h.eps e he).pollout hp
    exact findFd_none_of_new hfd (mem_map.mpr ⟨entry, hentry, hefd.trans heq⟩)
  · rw [hids]
    constructor
    · intro j hj
      rcases mem_cons.mp hj with rfl | hj
      · rw [update_self]
        exact isRing_nil _
      rw [hqueue j hj]
      exact h.queues.ring j hj
    · intro j hj k hk hjk
      rcases mem_cons.mp hj with rfl | hj
      · rw [update_self]
        simp
      rcases mem_cons.mp hk with rfl | hk
      · rw [update_self]
        simp
      rw [hqueue j hj, hqueue k hk]
      exact h.queues.disjoint j hj k hk hjk
    · intro b
      rw [hrefs]
      exact h.queues.bufs b
    · intro b
      rw [hrefs]
      exact h.queues.few b
  · intro e he
    rcases mem_cons.mp he with rfl | he
    · rw [update_self]
      refine ⟨rfl, rfl, fun _ => ⟨pollInHup, hasMask_addFd_self h.bag _ _ _ _, ?_⟩, rfl, by simp⟩
      exact iff_of_false (by decide) (by simp)
    have hold := h.eps e he
    rw [hqueue e.id (mem_map.mpr ⟨e, he, rfl⟩)]
    refine ⟨hold.tail, hold.count, ?_, hold.order, hold.skips⟩
    intro hp
    obtain ⟨events, hm, hiff⟩ := hold.pollout hp
    exact ⟨events, hasMask_addFd h.bag _ _ _ _ hm, hiff⟩

lemma PqInv.poll {s : PqState} {q : QueueMap} (h : PqInv polls s q) {poll : PollTable} (hbag : PollBag poll)
    (hmask : ∀ e ∈ s.eps, ∀ events, HasMask s.poll e.fdData events → HasMask poll e.fdData events) :
    PqInv polls { s with poll := poll } q := by
  refine ⟨h.ids, h.datas, h.queues, hbag, ?_⟩
  intro e he
  have hold := h.eps e he
  refine ⟨hold.tail, hold.count, ?_, hold.order, hold.skips⟩
  intro hp
  obtain ⟨events, hm, hiff⟩ := hold.pollout hp
  exact ⟨events, hmask e he events hm, hiff⟩

lemma poll_inv {s : PqState} {q : QueueMap} (h : PqInv polls s q) {op : PollOp}
    (hen : pqMachine.enabled s (.poll op)) : PqInv polls { s with poll := op.apply s.poll } q := by
  have hfresh : op.Fresh s.poll := by
    cases op with
    | addFd fd type privateData a => exact hen
    | _ => trivial
  refine h.poll (pollBag_apply h.bag hfresh) ?_
  intro e he events hm
  cases op with
  | addFd fd type privateData a => exact hasMask_addFd h.bag fd type privateData a hm
  | removeFd fd => exact hasMask_removeFd hm (hen e he)
  | optPoll i => exact hasMask_of_perm (entries_optPoll i s.poll) hm
  | stampReady i now => exact hm
  | pollResult revents => exact hm
  | setPrivateData fd privateData =>
    rw [PollOp.apply, mainloopSetPrivateData]
    split
    · exact hm
    · exact hm
  | pollmask f fd => exact absurd hen id

lemma pqStart_inv : PqInv polls pqStart (fun _ => []) := by
  refine ⟨nodup_nil, fun _ => nodup_nil, ?_, ?_, by simp [pqStart]⟩
  · refine ⟨by simp [PqState.ids, pqStart], by simp [PqState.ids, pqStart], fun _ => rfl, fun _ => ?_⟩
    exact Nat.zero_le _
  · exact ⟨nodup_nil, nodup_nil, by simp [pqStart, PollTable.entries, pollTableInit], rfl⟩

lemma pqStep_inv (h : ∃ q, PqInv polls s q) {e : PqEvent} (hen : pqMachine.enabled s e)
    (hfew : FewTargets e) (hidx : polls → IndexesRight s e) : ∃ q, PqInv polls (pqMachine.step s e) q := by
  obtain ⟨q, h⟩ := h
  cases e with
  | openEp id fdCtl fdData type a stdqlen => exact ⟨_, openEp_inv h hen.1 hen.2.1 hen.2.2⟩
  | send m blocks packet targets =>
    have hle : 0 + targets.length ≤ 32767 := by
      rw [Nat.zero_add]
      exact hfew
    exact sendPacketQueued_inv m blocks packet targets 0 hle h hidx (fun _ hb => absurd hb (by simp))
  | out id blocks =>
    dsimp only [pqMachine, pqStep]
    cases hfind : s.ep id with
    | none => exact ⟨q, h⟩
    | some ep =>
      obtain ⟨hep, hid⟩ := PqState.mem_of_ep hfind
      exact handleOutPacket_inv h hep (fun hp => hidx hp ep hep hid) blocks
  | setqlen id len =>
    dsimp only [pqMachine, pqStep]
    cases hfind : s.ep id with
    | none => exact ⟨q, h⟩
    | some ep => exact ⟨q, setqlenEp_inv h (PqState.mem_of_ep hfind).1 len⟩
  | close id =>
    dsimp only [pqMachine, pqStep]
    cases hfind : s.ep id with
    | none => exact ⟨q, h⟩
    | some ep =>
      obtain ⟨hep, hid⟩ := PqState.mem_of_ep hfind
      refine ⟨_, closeEp_inv h hep ?_⟩
      intro hp e he hne
      exact hidx hp ep hep hid e he (by rw [← hid]; exact hne)
  | poll op => exact ⟨q, poll_inv h hen⟩

/-- In every run that sends no packet to more than 32767 endpoints the queues, their counts and the
buffers are in order, and so are the requests for `POLLOUT` as long as the indexes are right. -/
theorem packet_queues_in_order (es : List PqEvent)
    (hes : pqMachine.Along (fun s e => pqMachine.enabled s e ∧ FewTargets e) pqStart es) :
    pqMachine.Always PqOk pqStart es ∧
    (pqMachine.Along IndexesRight pqStart es → pqMachine.Always PolloutOk pqStart es) := by
  constructor
  · refine hes.always (fun s => ∃ q, PqInv False s q) ?_ ?_ ⟨_, pqStart_inv⟩
    · rintro s ⟨q, h⟩
      exact h.ok
    rintro s e h ⟨hen, hfew⟩
    exact pqStep_inv h hen hfew (fun hp => hp.elim)
  intro hidx
  refine (hes.and hidx).always (fun s => ∃ q, PqInv True s q) ?_ ?_ ⟨_, pqStart_inv⟩
  · rintro s ⟨q, h⟩
    exact h.pollout trivial
  rintro s e h ⟨⟨hen, hfew⟩, hindex⟩
  exact pqStep_inv h hen hfew (fun _ => hindex)

instance (t : PollTable) (fd : Nat) : Decidable (IndexRight t fd) :=
  inferInstanceAs (Decidable (∃ i < t.nfds, (t.fds i).fd = fd ∧ t.fdperm fd = i))

def freeCell {β : Type} (h : Nat → Option β) : Option Nat := (range' 1 8).find? fun a => (h a).isNone

lemma freeCell_free {β : Type} {h : Nat → Option β} {a : Nat} (ha : freeCell h = some a) : h a = none := by
  have hnone := find?_some ha
  exact Option.isNone_iff_eq_none.mp hnone

def eightBlocks : Malloc where
  elem _ := freeCell
  buf _ := freeCell
  elem_free _ _ _ := freeCell_free
  buf_free _ _ _ := freeCell_free

/-- Two packets wait at two endpoints; at the first of them the second packet blocks once more. -/
def twoEndpoints : List PqEvent :=
  [.openEp 1 4 5 0x80#8 1 8, .openEp 2 6 7 0x80#8 2 8, .send eightBlocks (fun _ => true) [7] [1, 2],
    .send eightBlocks (fun _ => true) [8] [1, 2], .out 1 (fun i => i == 1), .out 2 (fun _ => false), .close 2]

theorem packet_queues_two_endpoints :
    pqMachine.Always PqOk pqStart twoEndpoints ∧ pqMachine.Always PolloutOk pqStart twoEndpoints := by
  have hrun := packet_queues_in_order twoEndpoints
    ⟨⟨⟨by decide +kernel, by decide +kernel, rfl⟩, trivial⟩, ⟨⟨by decide +kernel, by decide +kernel, rfl⟩, trivial⟩,
      ⟨trivial, show 2 ≤ 32767 by decide⟩, ⟨trivial, show 2 ≤ 32767 by decide⟩, ⟨trivial, trivial⟩, ⟨trivial, trivial⟩,
      ⟨trivial, trivial⟩, trivial⟩
  refine ⟨hrun.1, hrun.2 ⟨trivial, trivial, ?_, ?_, ?_, ?_, ?_, trivial⟩⟩
  all_goals
    simp only [IndexesRight]
    decide +kernel

def noMalloc : Malloc where
  elem _ _ := none
  buf _ _ := none
  elem_free _ _ _ ha := absurd ha (by simp)
  buf_free _ _ _ ha := absurd ha (by simp)

def SkipsOnlyFull (s : PqState) : Prop :=
  ∀ e ∈ s.eps, ∀ o ∈ e.offers, o.skipped = true → o.max ≤ o.count

theorem packet_skipped_without_memory :
    pqMachine.Along pqMachine.enabled pqStart [.openEp 1 4 5 0x80#8 1 8, .send noMalloc (fun _ => true) [7] [1]] ∧
    ¬pqMachine.Always SkipsOnlyFull pqStart [.openEp 1 4 5 0x80#8 1 8, .send noMalloc (fun _ => true) [7] [1]] := by
  refine ⟨⟨⟨by simp [pqStart], by simp [pqStart, pollTableInit], rfl⟩, trivial, trivial⟩, ?_⟩
  intro h
  have hskip := h.last ⟨1, 4, 5, none, 0, 8, [⟨[7], 0, 8, true, true⟩], []⟩ (mem_singleton_self _)
    ⟨[7], 0, 8, true, true⟩ (mem_singleton_self _) rfl
  exact absurd hskip (by decide)

end Vde
