import Mathlib.Algebra.Order.BigOperators.Group.List
import Mathlib.Algebra.Order.Group.Nat
import Mathlib.Data.Nat.ModEq
import Vde.Proofs.QueueHeaps

/-!
# Runs of the queue of vde_over_ns

In every run the list in memory does what the calls say, and the loop of the client that fills the queue with
empty packets ends, unless a name is queued that is too long for its field, or the suffix leaves room for less than
the header.
-/

namespace Vde

open List

/-! ### The loop that fills the queue -/

/-- The loop has come to its end, or has found no room at all and called `exit`. -/
def RefillEnd.Done : RefillEnd → Prop
  | .full _ => True
  | .exited => True
  | .badCopy => False
  | .faulted => False
  | .running => False

def Refills (qtimeout : Int) (suf : List UInt8) (s : QueueHeap) : Prop :=
  ∀ chan now behind malloc c, (∀ k s, malloc k s ≠ 0 ∧ malloc k s ∉ QueueHeap.allocated s) →
    ∃ turns, (refillLoop qtimeout suf chan now behind malloc turns 0 c s).Done

lemma exists_free {m : Nat} {ids : List Nat} (h : ids.length < m) (k : Nat) : ∃ j, (k + j) % m ∉ ids := by
  by_contra hall
  push Not at hall
  have hnodup : ((range m).map (fun j => (k + j) % m)).Nodup := by
    rw [nodup_map_iff_inj_on nodup_range]
    intro i hi j hj heq
    have hmod : i % m = j % m := Nat.ModEq.add_left_cancel' k heq
    rwa [Nat.mod_eq_of_lt (mem_range.mp hi), Nat.mod_eq_of_lt (mem_range.mp hj)] at hmod
  have hsub : (range m).map (fun j => (k + j) % m) ⊆ ids := by
    intro x hx
    obtain ⟨j, -, rfl⟩ := mem_map.mp hx
    exact hall j
  have hlength := (hnodup.subperm hsub).length_le
  rw [length_map, length_range] at hlength
  omega

/-- With 240 to 243 characters there is room for one to three bytes in the name of a query, and the header has four. -/
def SuffixFits (suf : List UInt8) : Prop := suf.length < 240 ∨ 243 < suf.length

lemma query_room_iff (suf : List UInt8) (n : Nat) :
    let room := dnsGetfreespace (suffixlen suf) (dnsSetid (dnsSettype dnsAlloc .query) n) .query
    SuffixFits suf ↔ room ≤ 0 ∨ 4 ≤ room := by
  intro room
  have hroom : room = max 0 (min (Int.tdiv (189 * (254 - (suffixlen suf : Int))) 256 - 6)
      (183 - Int.tdiv (189 * (suffixlen suf : Int)) 256)) := by
    change (if 0 < min _ _ then min (Int.tdiv (189 * (254 - (suffixlen suf : Int))) 256 - 6)
      (183 - Int.tdiv (189 * (suffixlen suf : Int)) 256) else 0) = _
    split_ifs
    · omega
    · omega
  have hneg : Int.tdiv (189 * ((suf.length + 1 : Nat) : Int)) 256 = 189 * (suf.length + 1) / 256 :=
    Int.tdiv_eq_ediv_of_nonneg (by omega)
  rw [hroom, suffixlen, hneg, SuffixFits]
  by_cases hlong : 254 ≤ suf.length
  · have hminus : 189 * (254 - ((suf.length + 1 : Nat) : Int)) = -(189 * (suf.length - 253 : Nat) : Nat) := by omega
    rw [hminus, Int.neg_tdiv]
    have hpos := Int.tdiv_nonneg (Int.natCast_nonneg (189 * (suf.length - 253))) (by decide : (0 : Int) ≤ 256)
    omega
  rw [Int.tdiv_eq_ediv_of_nonneg (by omega)]
  omega

lemma nstxcSendPacket_empty {suf : List UInt8} (hsuf : SuffixFits suf) (c : NsClient) (now chan : Nat)
    (behind : Nat → UInt8 × UInt8) : nstxcSendPacket 1 suf c now chan behind [] = .noSpace ∨ ∃ queries, nstxcSendPacket 1 suf c now chan behind [] =
    .sent queries (c.nsid + 1) := by
  have hroom := (query_room_iff suf c.nsid).mp hsuf
  rw [nstxcSendPacket, sendLoop]
  generalize dnsGetfreespace _ _ _ = room at hroom ⊢
  simp only [drop_nil, length_nil, ne_eq, not_true_eq_false, if_false]
  by_cases hnone : room ≤ 0
  · exact .inl (if_pos hnone)
  have hheader : ¬(if ((0 : Nat) : Int) < room - 4 then (0 : Int) else room - 4) < 0 := by
    split_ifs
    · omega
    · omega
  right
  rw [if_neg hnone]
  split_ifs
  all_goals first | exact ⟨_, rfl⟩ | omega

variable {l : List Nat}

section

variable {qtimeout : Int} {suf : List UInt8} (hsuf : SuffixFits suf) {chan : Nat} {now : Nat → Nat}
  {behind : Nat → UInt8 × UInt8} {malloc : Nat → QueueHeap → Nat}

lemma refillLoop_full {s : QueueHeap} (h : s.Linked l) (hlen : 10 ≤ l.length) (k : Nat) (c : NsClient) :
    (refillLoop qtimeout suf chan now behind malloc 1 k c s).Done := by
  have hfull : ¬s.qlen < drqlen := by
    rw [h.count, drqlen]
    omega
  rw [refillLoop, if_neg hfull]
  trivial

include hsuf in
lemma refillLoop_turn {s : QueueHeap} {k : Nat} {c : NsClient} (h : s.Linked l) (hkept : s.Kept l)
    (hlen : ¬10 ≤ l.length) (hptr : malloc k s ≠ 0 ∧ malloc k s ∉ s.allocated) :
    (refillLoop qtimeout suf chan now behind malloc 1 k c s).Done ∨
      ∃ c' s' l', c'.nsid = c.nsid + 1 ∧
        (∀ turns, refillLoop qtimeout suf chan now behind malloc (turns + 1) k c s =
          refillLoop qtimeout suf chan now behind malloc turns (k + 1) c' s') ∧ s'.Linked l' ∧ s'.Kept l' ∧
        (s' = s ∧ l' = l ∧ (∃ a ∈ l, (s.item a).id = c.nsid % 65536) ∨ l'.length = l.length + 1) := by
  have hless : s.qlen < drqlen := by
    rw [h.count, drqlen]
    omega
  rcases nstxcSendPacket_empty hsuf c (now k) chan (fun _ => behind k) with hsend | ⟨queries, hsend⟩
  · refine .inl ?_
    rw [refillLoop, if_pos hless, hsend]
    trivial
  refine .inr ?_
  have hturn : ∀ s' turns, s.queueid qtimeout (now k) (malloc k s) c.nsid = some s' →
      refillLoop qtimeout suf chan now behind malloc (turns + 1) k c s =
        refillLoop qtimeout suf chan now behind malloc turns (k + 1) ⟨c.nextId (now k) + 1, c.nsid + 1⟩ s' := by
    intro s' turns hqueue
    rw [refillLoop, if_pos hless, hsend]
    simp only [hqueue]
  by_cases hknown : ∃ a ∈ l, (s.item a).id = c.nsid % 65536
  · have hqueue : s.queueid qtimeout (now k) (malloc k s) c.nsid = some s :=
      h.queueitem_known hknown qtimeout (now k) none none
    exact ⟨_, s, l, rfl, fun turns => hturn s turns hqueue, h, hkept, .inl ⟨rfl, rfl, hknown⟩⟩
  push Not at hknown
  have hfield : nameField none = some ⟨queueNameSize, fun _ => 0⟩ := rfl
  obtain ⟨s', hqueue, hlinked, hkept', -, -⟩ :=
    h.queueitem_new hkept hknown hptr.1 hptr.2 qtimeout (now k) none hfield
  exact ⟨_, s', _, rfl, fun turns => hturn s' turns hqueue, hlinked, hkept', .inr length_append⟩

include hsuf in
lemma refillLoop_done (hmalloc : ∀ k s, malloc k s ≠ 0 ∧ malloc k s ∉ QueueHeap.allocated s) {n j k : Nat} {c : NsClient}
    {s : QueueHeap} (h : s.Linked l) (hkept : s.Kept l) (hn : 10 ≤ l.length + n)
    (hfree : (c.nsid + j) % 65536 ∉ l.map (fun a => (s.item a).id)) :
    ∃ turns, (refillLoop qtimeout suf chan now behind malloc turns k c s).Done := by
  induction n generalizing j k c s l with
  | zero => exact ⟨1, refillLoop_full h hn k c⟩
  | succ n ihn =>
    by_cases hlen : 10 ≤ l.length
    · exact ⟨1, refillLoop_full h hlen k c⟩
    induction j generalizing k c with
    | zero =>
      rcases refillLoop_turn hsuf h hkept hlen (hmalloc k s) with hdone | ⟨c', s', l', -, hturn, h', hkept', hmore⟩
      · exact ⟨1, hdone⟩
      rcases hmore with ⟨-, -, a, ha, hid⟩ | hmore
      · exact absurd (mem_map.mpr ⟨a, ha, hid⟩) hfree
      obtain ⟨j, hj⟩ := @exists_free 65536 (l'.map (fun a => (s'.item a).id))
        (by rw [length_map]; omega) c'.nsid
      obtain ⟨turns, hturns⟩ := ihn h' hkept' (by omega) hj
      exact ⟨turns + 1, hturn turns ▸ hturns⟩
    | succ j ihj =>
      rcases refillLoop_turn hsuf h hkept hlen (hmalloc k s) with hdone | ⟨c', s', l', hnsid, hturn, h', hkept', hmore⟩
      · exact ⟨1, hdone⟩
      rcases hmore with ⟨rfl, rfl, -⟩ | hmore
      · have hcloser : (c'.nsid + j) % 65536 ∉ l'.map (fun a => (s'.item a).id) := by
          rw [hnsid, Nat.add_assoc, Nat.add_comm 1]
          exact hfree
        obtain ⟨turns, hturns⟩ := ihj hcloser
        exact ⟨turns + 1, hturn turns ▸ hturns⟩
      obtain ⟨j, hj⟩ := @exists_free 65536 (l'.map (fun a => (s'.item a).id))
        (by rw [length_map]; omega) c'.nsid
      obtain ⟨turns, hturns⟩ := ihn h' hkept' (by omega) hj
      exact ⟨turns + 1, hturn turns ▸ hturns⟩

end

lemma QueueHeap.Linked.refills {s : QueueHeap} (h : s.Linked l) (hkept : s.Kept l) (qtimeout : Int)
    {suf : List UInt8} (hsuf : SuffixFits suf) : Refills qtimeout suf s := by
  intro chan now behind malloc c hmalloc
  by_cases hlen : 10 ≤ l.length
  · exact ⟨1, refillLoop_full h hlen 0 c⟩
  obtain ⟨j, hj⟩ := @exists_free 65536 (l.map (fun a => (s.item a).id)) (by rw [length_map]; omega) c.nsid
  exact refillLoop_done hsuf hmalloc h hkept (Nat.le_add_left 10 l.length) hj

lemma refillLoop_badCopy {qtimeout : Int} {suf : List UInt8} (hsuf : ¬SuffixFits suf) :
    ¬Refills qtimeout suf queueHeapInit := by
  intro h
  have hmalloc : ∀ (k : Nat) (s : QueueHeap), s.allocated.sum + 1 ≠ 0 ∧ s.allocated.sum + 1 ∉ s.allocated := by
    intro _ s
    refine ⟨Nat.succ_ne_zero _, fun hmem => ?_⟩
    have hle := le_sum_of_mem hmem
    omega
  obtain ⟨turns, hdone⟩ := h 0 (fun _ => 0) (fun _ => (0, 0)) (fun _ s => s.allocated.sum + 1) ⟨0, 0⟩ hmalloc
  cases turns with
  | zero => exact hdone
  | succ turns =>
    have hroom := (not_congr (query_room_iff suf 0)).mp hsuf
    have hsend : nstxcSendPacket 1 suf ⟨0, 0⟩ 0 0 (fun _ => (0, 0)) [] = .badCopy := by
      rw [nstxcSendPacket, sendLoop]
      dsimp only at hroom ⊢
      generalize dnsGetfreespace _ _ _ = room at hroom ⊢
      have hless : ¬((([] : List UInt8).length : Nat) : Int) < room - 4 := by
        rw [length_nil]
        omega
      rw [if_neg (by omega), if_neg hless]
      exact if_pos (by omega)
    rw [refillLoop, if_pos (by decide), hsend] at hdone
    exact hdone

/-! ### The calls -/

/-- The records are the list of the queue, with `qlen` as its length and with different identifiers; its items
are sorted by their times, and the loop of the client ends. -/
structure NsQueueRight (qtimeout : Int) (suf : List UInt8) (s : NsQueueRun) : Prop where
  running : s.fault = false
  linked : s.heap.Linked s.heap.addresses
  sorted : s.heap.contents.Pairwise (fun p q => p.timeout ≤ q.timeout)
  refills : Refills qtimeout suf s.heap

/-- What a call does to the list, and what it returns or passes to `timeoutfn`: a new item is put at the end,
the item asked for is taken out, the items whose time has come are passed on once and taken out. -/
def NsQueueCallRight (qtimeout : Int) (s : NsQueueRun) : NsQueueEvent → Prop
  | .queueitem now ptr id name peer => ∃ heap, s.heap.queueitem qtimeout now ptr (id % 65536) name peer = some heap ∧
      queueitem (id % 65536) name peer now qtimeout s.heap.contents = some heap.contents
  | .queueid now ptr id => ∃ heap, s.heap.queueid qtimeout now ptr id = some heap ∧
      queueitem (id % 65536) none none now qtimeout s.heap.contents = some heap.contents
  | .dequeueitem id => ∃ heap r, s.heap.dequeueitem id = some (heap, r) ∧
      heap.contents = removeItem id s.heap.contents ∧
      takenItem id s.heap.contents = (if r = 0 then none else some (heap.item r)) ∧ (r ≠ 0 → r ∈ heap.allocated)
  | .timeoutqueue now => ∃ heap, s.heap.timeoutqueue now =
        some (heap, s.heap.contents.filter (fun q => q.timeout ≤ now)) ∧
      heap.contents = s.heap.contents.filter (fun q => now < q.timeout)

def NameFits (s : NsQueueRun) : NsQueueEvent → Prop
  | .queueitem _ _ id (some name) _ => (cString name).length ≤ 256 ∨ ∃ q ∈ s.heap.contents, q.id = id % 65536
  | _ => True

structure NsQueueInv (qtimeout : Int) (s : NsQueueRun) : Prop where
  running : s.fault = false
  queue : ∃ l, s.heap.Linked l ∧ s.heap.Kept l
  sorted : s.heap.contents.Pairwise (fun p q => p.timeout ≤ q.timeout)
  bounded : ∀ q ∈ s.heap.contents, q.timeout ≤ s.clock + qtimeout

lemma NsQueueInv.right {qtimeout : Int} {s : NsQueueRun} (h : NsQueueInv qtimeout s) {suf : List UInt8}
    (hsuf : SuffixFits suf) : NsQueueRight qtimeout suf s := by
  obtain ⟨l, hlinked, hkept⟩ := h.queue
  exact ⟨h.running, hlinked.addresses_eq.symm ▸ hlinked, h.sorted, hlinked.refills hkept qtimeout hsuf⟩

section

variable {qtimeout now : Int} {ptr id : Nat} {s : NsQueueRun} {name : Option (List UInt8)}

lemma find_item {queue : List NstxQueue} : (finditem id queue).isSome = true ↔ ∃ q ∈ queue, q.id = id := by
  rw [finditem, find?_isSome]
  simp only [beq_iff_eq]

lemma NsQueueInv.queueitem (h : NsQueueInv qtimeout s) (hclock : s.clock ≤ now) (hptr : ptr ≠ 0)
    (hnew : ptr ∉ s.heap.allocated) (peer : Option Nat)
    (hfits : (∃ field, nameField name = some field) ∨ ∃ q ∈ s.heap.contents, q.id = id) : ∃ heap,
    s.heap.queueitem qtimeout now ptr id name peer = some heap ∧ NsQueueInv qtimeout ⟨heap, now, s.fault⟩ ∧
    Vde.queueitem id name peer now qtimeout s.heap.contents = some heap.contents := by
  obtain ⟨l, hlinked, hkept⟩ := h.queue
  have hbound : ∀ q ∈ s.heap.contents, q.timeout ≤ now + qtimeout := by
    intro q hq
    have hle := h.bounded q hq
    omega
  by_cases hknown : ∃ q ∈ s.heap.contents, q.id = id
  · have hrecord : ∃ a ∈ l, (s.heap.item a).id = id := by
      rw [hlinked.contents_eq] at hknown
      simpa only [mem_map, exists_exists_and_eq_and] using hknown
    refine ⟨s.heap, hlinked.queueitem_known hrecord qtimeout now name peer,
      ⟨h.running, h.queue, h.sorted, hbound⟩, ?_⟩
    rw [Vde.queueitem, if_pos (find_item.mpr hknown)]
  obtain ⟨field, hfield⟩ := hfits.resolve_right hknown
  have hrecord : ∀ a ∈ l, (s.heap.item a).id ≠ id := by
    intro a ha heq
    refine hknown ⟨s.heap.item a, ?_, heq⟩
    rw [hlinked.contents_eq]
    exact mem_map_of_mem ha
  obtain ⟨heap, hqueue, hlinked', hkept', hitem, hold⟩ :=
    hlinked.queueitem_new hkept hrecord hptr hnew qtimeout now peer hfield
  have hcontents : heap.contents = s.heap.contents ++ [⟨id, now + qtimeout, field, peer.getD 0⟩] := by
    rw [hlinked'.contents_eq, hlinked.contents_eq, map_append, map_singleton, hitem,
      map_congr_left hold]
  refine ⟨heap, hqueue, ⟨h.running, ⟨_, hlinked', hkept'⟩, ?_, ?_⟩, ?_⟩
  · rw [hcontents, pairwise_append]
    refine ⟨h.sorted, pairwise_singleton _ _, ?_⟩
    intro p hp q hq
    rw [mem_singleton.mp hq]
    exact hbound p hp
  · intro q hq
    rw [hcontents] at hq
    rcases mem_append.mp hq with hq | hq
    · exact hbound q hq
    · rw [mem_singleton.mp hq]
  rw [Vde.queueitem, if_neg (fun hfound => hknown (find_item.mp hfound)), hfield, hcontents]
  rfl

lemma NsQueueInv.of_sublist (h : NsQueueInv qtimeout s) {heap : QueueHeap} {l' : List Nat}
    (hlinked : s.heap.Linked l) (hlinked' : heap.Linked l') (hkept' : heap.Kept l') (hsub : l'.Sublist l)
    (hitem : heap.item = s.heap.item) (hclock : s.clock ≤ now) : NsQueueInv qtimeout ⟨heap, now, s.fault⟩ := by
  have hcontents : heap.contents.Sublist s.heap.contents := by
    rw [hlinked'.contents_eq, hlinked.contents_eq, hitem]
    exact hsub.map _
  refine ⟨h.running, ⟨l', hlinked', hkept'⟩, h.sorted.sublist hcontents, ?_⟩
  intro q hq
  have hle := h.bounded q (hcontents.subset hq)
  dsimp only
  omega

lemma nameField_fits {name : List UInt8} : (∃ field, nameField (some name) = some field) ↔ (cString name).length ≤ 256 := by
  constructor
  · rintro ⟨field, hfield⟩
    obtain ⟨-, hroom⟩ := Block.size_of_storeList hfield
    have hle := hroom (append_ne_nil_of_right_ne_nil _ (cons_ne_nil _ _))
    simp only [length_append, length_singleton, queueNameSize] at hle
    omega
  intro hlen
  exact strcpy_fits (Nat.lt_succ_of_le hlen)

lemma NsQueueInv.step (h : NsQueueInv qtimeout s) {e : NsQueueEvent} (he : e.Legal s) (hfits : NameFits s e) :
    NsQueueInv qtimeout (nsQueueStep qtimeout s e) ∧ NsQueueCallRight qtimeout s e := by
  obtain ⟨l, hlinked, hkept⟩ := h.queue
  cases e with
  | queueitem now ptr id name peer =>
    have hfield : (∃ field, nameField name = some field) ∨ ∃ q ∈ s.heap.contents, q.id = id % 65536 := by
      cases name with
      | none => exact .inl ⟨_, rfl⟩
      | some name => exact Or.imp_left nameField_fits.mpr hfits
    have hclock : s.clock ≤ now := he.1
    obtain ⟨heap, hqueue, hinv, hcontents⟩ := h.queueitem hclock he.2.1 he.2.2 peer hfield
    refine ⟨?_, heap, hqueue, hcontents⟩
    rw [nsQueueStep, NsQueueEvent.result, hqueue]
    exact hinv
  | queueid now ptr id =>
    have hfield : (∃ field, nameField none = some field) ∨ ∃ q ∈ s.heap.contents, q.id = id % 65536 := .inl ⟨_, rfl⟩
    have hclock : s.clock ≤ now := he.1
    obtain ⟨heap, hqueue, hinv, hcontents⟩ := h.queueitem hclock he.2.1 he.2.2 none hfield
    refine ⟨?_, heap, hqueue, hcontents⟩
    rw [nsQueueStep, NsQueueEvent.result, QueueHeap.queueid, hqueue]
    exact hinv
  | dequeueitem id =>
    obtain ⟨heap, r, l', hcall, hlinked', hkept', hsub, hitem, hleft, hfor, hlive⟩ := hlinked.dequeueitem hkept id
    refine ⟨?_, heap, r, hcall, ?_, ?_, hlive⟩
    · rw [nsQueueStep, NsQueueEvent.result, hcall]
      exact h.of_sublist hlinked hlinked' hkept' hsub hitem le_rfl
    · rw [hlinked'.contents_eq, hlinked.contents_eq, hitem, hleft]
    · rw [hlinked.contents_eq, hfor, hitem]
  | timeoutqueue now =>
    have hsorted := h.sorted
    rw [hlinked.contents_eq] at hsorted
    obtain ⟨heap, l', hcall, hlinked', hkept', hsub, hitem, hleft⟩ :=
      hlinked.timeoutLoop hkept now hsorted hlinked.turns_lt
    rw [← hlinked.contents_eq] at hcall hleft
    refine ⟨?_, heap, hcall, ?_⟩
    · rw [nsQueueStep, NsQueueEvent.result, QueueHeap.timeoutqueue, hcall]
      exact h.of_sublist hlinked hlinked' hkept' hsub hitem he.1
    · rw [hlinked'.contents_eq, hitem, hleft]

lemma NsQueueInv.overflow (h : NsQueueInv qtimeout s) {e : NsQueueEvent} (hfits : ¬NameFits s e) :
    (nsQueueStep qtimeout s e).fault = true := by
  obtain ⟨l, hlinked, -⟩ := h.queue
  cases e with
  | queueitem now ptr id name peer =>
    cases name with
    | none => exact absurd trivial hfits
    | some name =>
      obtain ⟨hlong, hother⟩ := not_or.mp hfits
      have hrecord : ∀ a ∈ l, (s.heap.item a).id ≠ id % 65536 := by
        intro a ha heq
        refine hother ⟨s.heap.item a, ?_, heq⟩
        rw [hlinked.contents_eq]
        exact mem_map_of_mem ha
      have hfield : nameField (some name) = none := by
        rw [Option.eq_none_iff_forall_ne_some]
        intro field heq
        exact hlong (nameField_fits.mp ⟨field, heq⟩)
      rw [nsQueueStep, NsQueueEvent.result, hlinked.queueitem_overflow hrecord qtimeout now peer hfield]
  | queueid now ptr id => exact absurd trivial hfits
  | dequeueitem id => exact absurd trivial hfits
  | timeoutqueue now => exact absurd trivial hfits

lemma NsQueueInv.init (qtimeout clock : Int) : NsQueueInv qtimeout (nsQueueInit clock) := by
  have hlinked : queueHeapInit.Linked [] :=
    ⟨rfl, nodup_nil, fun a ha => absurd ha not_mem_nil, rfl, nodup_nil⟩
  have hempty : (nsQueueInit clock).heap.contents = [] := hlinked.contents_eq
  refine ⟨rfl, ⟨[], hlinked, .inl rfl⟩, ?_, ?_⟩
  · rw [hempty]
    exact List.Pairwise.nil
  intro q hq
  rw [hempty] at hq
  exact absurd hq not_mem_nil

end

/-- In a run all calls do what they are for, the list is right and the loop of the client ends all the time exactly if
every name that is queued fits into its field, and the header of an empty packet into the name of its query. -/
theorem ns_queue_iff (qtimeout clock : Int) (suf : List UInt8) (es : List NsQueueEvent)
    (hes : (nsQueueMachine qtimeout).Along (nsQueueMachine qtimeout).enabled (nsQueueInit clock) es) :
    (nsQueueMachine qtimeout).Always (NsQueueRight qtimeout suf) (nsQueueInit clock) es ∧
    (nsQueueMachine qtimeout).Along (NsQueueCallRight qtimeout) (nsQueueInit clock) es ↔ SuffixFits suf ∧
    (nsQueueMachine qtimeout).Along NameFits (nsQueueInit clock) es := by
  by_cases hsuf : SuffixFits suf
  · rw [and_iff_right hsuf]
    apply Machine.always_and_along_iff (NsQueueInv qtimeout) _ _ _ (NsQueueInv.init qtimeout clock) es hes
    · intro s h
      exact h.right hsuf
    · intro s e h he hfits
      exact h.step he hfits
    intro s e h _ hfits hboth
    have hfault := h.overflow hfits
    have hrunning := hboth.1.running
    rw [nsQueueMachine] at hrunning
    rw [hfault] at hrunning
    exact absurd hrunning (by decide)
  constructor
  · intro h
    exact absurd h.1.head.refills (refillLoop_badCopy hsuf)
  intro h
  exact absurd h.1 hsuf

def answeredQuery : List NsQueueEvent := [.queueitem 1 64 7 (some [1, 97, 0]) (some 3), .dequeueitem 7]

theorem ns_queue_two : (nsQueueMachine 5).Always (NsQueueRight 5 [97]) (nsQueueInit 0) answeredQuery ∧
    (nsQueueMachine 5).Along (NsQueueCallRight 5) (nsQueueInit 0) answeredQuery := by
  have henabled : (nsQueueMachine 5).Along (nsQueueMachine 5).enabled (nsQueueInit 0) answeredQuery :=
    ⟨⟨by decide, by decide, not_mem_nil⟩, ⟨le_rfl, trivial⟩, trivial⟩
  exact (ns_queue_iff 5 0 [97] answeredQuery henabled).mpr ⟨.inl (by decide), .inl (by decide), trivial, trivial⟩

/-- The first item with a name of 320 bytes. -/
theorem long_name_written :
    (nsQueueMachine 5).Along (nsQueueMachine 5).enabled (nsQueueInit 0)
        [.queueitem 1 64 1 (some (fiveLabels ++ [0])) (some 3)] ∧
      ¬(nsQueueMachine 5).Always (NsQueueRight 5 [97]) (nsQueueInit 0)
        [.queueitem 1 64 1 (some (fiveLabels ++ [0])) (some 3)] := by
  refine ⟨⟨⟨by decide, by decide, not_mem_nil⟩, trivial⟩, ?_⟩
  intro h
  have hright := h.last
  have hfits : ¬NameFits (nsQueueInit 0) (.queueitem 1 64 1 (some (fiveLabels ++ [0])) (some 3)) := by
    have hlong : ¬(cString (fiveLabels ++ [0])).length ≤ 256 := by decide +kernel
    rw [NameFits, not_or]
    refine ⟨hlong, ?_⟩
    rintro ⟨q, hq, -⟩
    exact absurd hq not_mem_nil
  have hfault := (NsQueueInv.init 5 0).overflow hfits
  have hrunning := hright.running
  rw [Machine.run, foldl_cons, foldl_nil, nsQueueMachine] at hrunning
  rw [hfault] at hrunning
  exact absurd hrunning (by decide)

end Vde
