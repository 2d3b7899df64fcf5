import Vde.Proofs.NsQueues

/-!
# The queue in memory and the list it stands for

Every call does to the list of the records what the calls say: an item is put at the end, an item is taken
out, the items whose time has come are taken off the front. A name that does not fit into its field is the only
way out of this.
-/

namespace Vde

open Function List Option

def removeItem (id : Int) (queue : List NstxQueue) : List NstxQueue :=
  if id < 0 then queue.tail else queue.eraseP (fun q => decide ((q.id : Int) = id))

def takenItem (id : Int) (queue : List NstxQueue) : Option NstxQueue :=
  if id < 0 then queue.head? else queue.find? (fun q => decide ((q.id : Int) = id))

variable {a b : Nat}

namespace QueueHeap

def item (s : QueueHeap) (a : Nat) : NstxQueue := (s.items a).toNstxQueue

def hasId (s : QueueHeap) (x : Int) (a : Nat) : Bool := decide (((s.item a).id : Int) = x)

def addresses (s : QueueHeap) : List Nat := followChain s.next s.allocated.length s.qhead

def contents (s : QueueHeap) : List NstxQueue := s.addresses.map s.item

structure Linked (s : QueueHeap) (l : List Nat) : Prop where
  chain : NextChain s.next s.qhead l
  nodup : l.Nodup
  live : ∀ a ∈ l, a ∈ s.allocated
  count : s.qlen = l.length
  ids : (l.map (fun a => (s.item a).id)).Nodup

/-- The record that was returned last is not in the queue any more. -/
def Kept (s : QueueHeap) (l : List Nat) : Prop := s.tmp = 0 ∨ s.tmp ∈ s.allocated ∧ s.tmp ∉ l

section

variable {s : QueueHeap} {l : List Nat} {ptr id : Nat}

/-! ### Fields -/

section

variable (s)

include s

lemma setNext_self (a n : Nat) : (s.setNext a n).next a = n := by
  simp only [QueueHeap.next, setNext, update_self]

lemma setNext_of_ne (n : Nat) (h : b ≠ a) : (s.setNext a n).next b = s.next b := by
  simp only [QueueHeap.next, setNext, update_of_ne h]

lemma setNext_item (a n : Nat) : (s.setNext a n).item = s.item := by
  funext b
  by_cases hb : b = a
  · simp only [hb, item, setNext, update_self]
  · simp only [item, setNext, update_of_ne hb]

lemma setItem_next (a : Nat) (q : NstxQueue) : (s.setItem a q).next = s.next := by
  funext b
  by_cases hb : b = a
  · simp only [hb, QueueHeap.next, setItem, update_self]
  · simp only [QueueHeap.next, setItem, update_of_ne hb]

lemma setItem_self (a : Nat) (q : NstxQueue) : (s.setItem a q).item a = q := by
  simp only [item, setItem, update_self]

lemma setItem_of_ne (q : NstxQueue) (h : b ≠ a) : (s.setItem a q).item b = s.item b := by
  simp only [item, setItem, update_of_ne h]

end

/-! ### The records of the queue -/

section

variable (h : s.Linked l)

include h

lemma Linked.length_le : l.length ≤ s.allocated.length := (h.nodup.subperm h.live).length_le

lemma Linked.addresses_eq : s.addresses = l := followChain_eq h.chain h.length_le

lemma Linked.contents_eq : s.contents = l.map s.item := by rw [contents, h.addresses_eq]

lemma Linked.ne_zero (ha : a ∈ l) : a ≠ 0 := by
  obtain ⟨m, n, rfl⟩ := append_of_mem ha
  exact h.chain.behind.1

lemma Linked.isLive : ∀ a ∈ l, s.isLive a = true := fun a ha => decide_eq_true (h.live a ha)

lemma Linked.turns_lt : l.length < s.turns := Nat.lt_succ_of_le h.length_le

/-! ### `queueitem` -/

lemma Linked.finditem (id : Nat) : s.finditem id = some ((l.find? (fun a => (s.items a).id == id)).getD 0) :=
  walkChain_eq h.chain h.isLive h.turns_lt

lemma Linked.queueitem_known (hid : ∃ a ∈ l, (s.item a).id = id) (qtimeout now : Int)
    (name : Option (List UInt8)) (peer : Option Nat) : s.queueitem qtimeout now ptr id name peer = some s := by
  obtain ⟨a, ha, haid⟩ := hid
  cases hfind : l.find? (fun a => (s.items a).id == id) with
  | none =>
    have hnone := find?_eq_none.mp hfind a ha
    exact absurd (beq_iff_eq.mpr haid) hnone
  | some b =>
    have hb := h.ne_zero (mem_of_find?_eq_some hfind)
    rw [QueueHeap.queueitem, h.finditem, hfind]
    simp [hb]

lemma Linked.finditem_new (hid : ∀ a ∈ l, (s.item a).id ≠ id) : s.finditem id = some 0 := by
  have hnone : l.find? (fun a => (s.items a).id == id) = none := by
    rw [find?_eq_none]
    intro a ha hmatch
    exact hid a ha (beq_iff_eq.mp hmatch)
  rw [h.finditem, hnone]
  rfl

end

lemma link_eq {s : QueueHeap} (hchain : NextChain s.next s.qhead l) (hlive : ∀ a ∈ l, a ∈ s.allocated)
    (hturns : l.length < s.turns) (hptr : ptr ≠ 0) (hnew : ptr ∉ l) (hnodup : l.Nodup) (hend : s.next ptr = 0) :
    ∃ s', s.link ptr = some s' ∧ NextChain s'.next s'.qhead (l ++ [ptr]) ∧ s'.item = s.item ∧ s'.allocated =
    s.allocated ∧ s'.qlen = s.qlen ∧ s'.tmp = s.tmp := by
  rw [link]
  rcases eq_nil_or_concat l with rfl | ⟨m, t, rfl⟩
  · have hempty : s.qhead = 0 := hchain
    rw [if_pos hempty]
    exact ⟨_, rfl, ⟨rfl, hptr, hend⟩, rfl, rfl, rfl, rfl⟩
  rw [concat_eq_append] at hchain hlive hturns hnew hnodup ⊢
  have hhead : s.qhead ≠ 0 := by
    cases m with
    | nil => exact hchain.1 ▸ hchain.2.1
    | cons b m => exact hchain.1 ▸ hchain.2.1
  have hwalk : walkChain s.isLive s.next (fun a => s.next a == 0) s.turns s.qhead = some t := by
    have hlive' : ∀ a ∈ m ++ [t], s.isLive a = true := fun a ha => decide_eq_true (hlive a ha)
    rw [walkChain_eq hchain hlive' hturns, hchain.find_last]
    rfl
  have hnotin : t ∉ m := by
    intro ht
    exact absurd rfl ((nodup_append.mp hnodup).2.2 t ht t mem_cons_self)
  have hne : ptr ≠ t := by
    intro heq
    exact hnew (heq ▸ mem_append_right _ mem_cons_self)
  rw [if_neg hhead, hwalk]
  refine ⟨_, rfl, ?_, setNext_item s t ptr, rfl, rfl, rfl⟩
  rw [append_assoc]
  refine NextChain.relink hchain ⟨setNext_self s t ptr, hptr, ?_⟩ ?_
  · rw [setNext_of_ne s ptr hne]
    exact hend
  intro c hc
  have hct : c ≠ t := by
    intro heq
    exact hnotin (heq ▸ hc)
  exact setNext_of_ne s ptr hct

lemma Linked.queueitem_new (h : s.Linked l) (hkept : s.Kept l) (hid : ∀ a ∈ l, (s.item a).id ≠ id) (hptr : ptr ≠ 0)
    (hnew : ptr ∉ s.allocated) (qtimeout now : Int) {name : Option (List UInt8)} (peer : Option Nat)
    {field : Block UInt8} (hfield : nameField name = some field) : ∃ s', s.queueitem qtimeout now ptr id name peer =
    some s' ∧ s'.Linked (l ++ [ptr]) ∧ s'.Kept (l ++ [ptr]) ∧ s'.item ptr =
    ⟨id, now + qtimeout, field, peer.getD 0⟩ ∧ ∀ a ∈ l, s'.item a = s.item a := by
  have hout : ∀ a ∈ l, a ≠ ptr := by
    intro a ha heq
    exact hnew (heq ▸ h.live a ha)
  -- the record is allocated and cleared before it is linked
  generalize hs1 : ({ s with
    qlen := s.qlen + 1
    allocated := ptr :: s.allocated
    items := Function.update s.items ptr clearedItem } : QueueHeap) = s1
  have hnext1 : ∀ a, a ≠ ptr → s1.next a = s.next a := by
    intro a ha
    simp only [← hs1, QueueHeap.next, update_of_ne ha]
  have hitem1 : ∀ a, a ≠ ptr → s1.item a = s.item a := by
    intro a ha
    simp only [← hs1, item, update_of_ne ha]
  have hend : s1.next ptr = 0 := by
    simp only [← hs1, QueueHeap.next, update_self, clearedItem]
  have halloc : s1.allocated = ptr :: s.allocated := by rw [← hs1]
  have hchain : NextChain s1.next s1.qhead l := by
    have hhead : s1.qhead = s.qhead := by rw [← hs1]
    rw [hhead]
    exact h.chain.congr (fun a ha => hnext1 a (hout a ha))
  have hlive : ∀ a ∈ l, a ∈ s1.allocated := by
    intro a ha
    rw [halloc]
    exact mem_cons_of_mem _ (h.live a ha)
  have hturns : l.length < s1.turns := by
    rw [QueueHeap.turns, halloc, length_cons]
    exact Nat.lt_succ_of_lt h.turns_lt
  obtain ⟨s2, hlink, hchain2, hitem2, halloc2, hlen2, htmp2⟩ :=
    link_eq hchain hlive hturns hptr (fun hmem => hnew (h.live ptr hmem)) h.nodup hend
  have hresult : s.queueitem qtimeout now ptr id name peer =
      some (s2.setItem ptr ⟨id, now + qtimeout, field, peer.getD 0⟩) := by
    rw [QueueHeap.queueitem, h.finditem_new hid]
    simp only [bind, bind, ne_eq, not_true_eq_false, if_false, hs1, hlink, hfield]
    rfl
  have hold : ∀ a ∈ l, (s2.setItem ptr ⟨id, now + qtimeout, field, peer.getD 0⟩).item a = s.item a := by
    intro a ha
    rw [setItem_of_ne _ _ (hout a ha), hitem2, hitem1 a (hout a ha)]
  refine ⟨_, hresult, ⟨?_, ?_, ?_, ?_, ?_⟩, ?_, setItem_self _ _ _, hold⟩
  · rw [setItem_next]
    exact hchain2
  · rw [nodup_append]
    refine ⟨h.nodup, nodup_singleton _, ?_⟩
    intro a ha b hb
    rw [mem_singleton.mp hb]
    exact hout a ha
  · intro a ha
    have hall : (s2.setItem ptr ⟨id, now + qtimeout, field, peer.getD 0⟩).allocated = ptr :: s.allocated :=
      halloc2.trans halloc
    rw [hall]
    rcases mem_append.mp ha with ha | ha
    · exact mem_cons_of_mem _ (h.live a ha)
    rw [mem_singleton.mp ha]
    exact mem_cons_self
  · have hcount : (s2.setItem ptr ⟨id, now + qtimeout, field, peer.getD 0⟩).qlen = s.qlen + 1 := by
      rw [← hs1] at hlen2
      exact hlen2
    rw [hcount, h.count, length_append, length_singleton]
    rfl
  · rw [map_append, nodup_append]
    have hsame : l.map (fun a => ((s2.setItem ptr ⟨id, now + qtimeout, field, peer.getD 0⟩).item a).id) =
        l.map (fun a => (s.item a).id) := map_congr_left (fun a ha => by rw [hold a ha])
    rw [hsame]
    refine ⟨h.ids, nodup_singleton _, ?_⟩
    intro x hx y hy
    obtain ⟨a, ha, rfl⟩ := mem_map.mp hx
    obtain ⟨b, hb, rfl⟩ := mem_map.mp hy
    rw [mem_singleton.mp hb, setItem_self]
    exact hid a ha
  · have htmp : (s2.setItem ptr ⟨id, now + qtimeout, field, peer.getD 0⟩).tmp = s.tmp := by
      rw [← hs1] at htmp2
      exact htmp2
    have hall : (s2.setItem ptr ⟨id, now + qtimeout, field, peer.getD 0⟩).allocated = ptr :: s.allocated :=
      halloc2.trans halloc
    rw [Kept, htmp, hall]
    rcases hkept with hkept | ⟨hin, hnot⟩
    · exact .inl hkept
    refine .inr ⟨mem_cons_of_mem _ hin, ?_⟩
    intro hmem
    rcases mem_append.mp hmem with hmem | hmem
    · exact hnot hmem
    · exact hnew (mem_singleton.mp hmem ▸ hin)

lemma Linked.queueitem_overflow (h : s.Linked l) (hid : ∀ a ∈ l, (s.item a).id ≠ id) (qtimeout now : Int)
    {name : Option (List UInt8)} (peer : Option Nat) (hfield : nameField name = none) :
    s.queueitem qtimeout now ptr id name peer = none := by
  rw [QueueHeap.queueitem, h.finditem_new hid]
  simp only [bind, Option.bind, ne_eq, not_true_eq_false, if_false, hfield]
  split
  · rfl
  · rfl

/-! ### `dequeueitem` -/

lemma free_eq (ha : a ∈ s.allocated) : s.free a = some { s with allocated := s.allocated.erase a } := by
  rw [free, if_pos ha]

lemma Linked.free (h : s.Linked l) (ha : a ∉ l) :
    ({ s with allocated := s.allocated.erase a } : QueueHeap).Linked l := by
  refine ⟨h.chain, h.nodup, ?_, h.count, h.ids⟩
  intro b hb
  have hne : b ≠ a := by
    intro heq
    exact ha (heq ▸ hb)
  exact (mem_erase_of_ne hne).mpr (h.live b hb)

lemma Linked.behead (h : s.Linked (a :: l)) :
    s.qhead = a ∧ ({ s with qhead := s.next a, qlen := s.qlen - 1 } : QueueHeap).Linked l := by
  obtain ⟨hhead, -, hrest⟩ := h.chain
  refine ⟨hhead, hrest, h.nodup.of_cons, fun b hb => h.live b (mem_cons_of_mem _ hb), ?_, ?_⟩
  · have hcount := h.count
    rw [length_cons] at hcount
    dsimp only
    omega
  have hids := h.ids
  rw [map_cons, nodup_cons] at hids
  exact hids.2

lemma Linked.unlinked {pre rest : List Nat} (h : s.Linked (pre ++ ptr :: b :: rest))
    (hrest : NextChain s.next (s.next b) rest) :
    ({ s.setNext ptr (s.next b) with qlen := s.qlen - 1 } : QueueHeap).Linked (pre ++ ptr :: rest) := by
  have hsub : (pre ++ ptr :: rest).Sublist (pre ++ ptr :: b :: rest) :=
    Sublist.append_left (Sublist.cons_cons _ (sublist_cons_self _ _)) _
  have hnodup := h.nodup
  rw [nodup_append, nodup_cons] at hnodup
  have hpre : ∀ c ∈ pre, c ≠ ptr := fun c hc => hnodup.2.2 c hc ptr mem_cons_self
  have hbehind : ∀ c ∈ rest, c ≠ ptr := by
    intro c hc heq
    exact hnodup.2.1.1 (heq ▸ mem_cons_of_mem _ hc)
  have hids : ((pre ++ ptr :: rest).map (fun a => ((s.setNext ptr (s.next b)).item a).id)).Nodup := by
    rw [setNext_item]
    exact (hsub.map _).nodup h.ids
  refine ⟨?_, hsub.nodup h.nodup, fun c hc => h.live c (hsub.subset hc), ?_, hids⟩
  · refine NextChain.relink h.chain ?_ (fun c hc => setNext_of_ne s (s.next b) (hpre c hc))
    have hchain : NextChain (s.setNext ptr (s.next b)).next (s.next b) rest :=
      NextChain.congr hrest (fun c hc => setNext_of_ne s (s.next b) (hbehind c hc))
    have hstart : (s.setNext ptr (s.next b)).next ptr = s.next b := setNext_self s ptr (s.next b)
    exact @Eq.subst _ (fun a => NextChain (s.setNext ptr (s.next b)).next a rest) _ _ hstart.symm hchain
  have hcount := h.count
  simp only [length_append, length_cons] at hcount ⊢
  omega

lemma Linked.unlinkLoop {pre rest : List Nat} (h : s.Linked (pre ++ ptr :: rest)) (x : Int) {turns : Nat}
    (hturns : rest.length < turns) : ∃ s', QueueHeap.unlinkLoop x turns ptr (s.next ptr) s =
    some (s', (rest.find? (s.hasId x)).getD 0) ∧ s'.Linked (pre ++ ptr :: rest.eraseP (s.hasId x)) ∧ s'.item =
    s.item ∧ s'.allocated = s.allocated := by
  induction rest generalizing pre ptr turns with
  | nil =>
    have hend : s.next ptr = 0 := h.chain.behind.2
    cases turns with
    | zero => exact absurd hturns (Nat.not_lt_zero _)
    | succ turns =>
      refine ⟨s, ?_, h, rfl, rfl⟩
      rw [QueueHeap.unlinkLoop, if_pos hend]
      rfl
  | cons b rest ih =>
    cases turns with
    | zero => exact absurd hturns (Nat.not_lt_zero _)
    | succ turns =>
      obtain ⟨hlink, hb, hrest⟩ := h.chain.behind.2
      have hbmem : b ∈ pre ++ ptr :: b :: rest :=
        mem_append_right _ (mem_cons_of_mem _ mem_cons_self)
      rw [QueueHeap.unlinkLoop, hlink, if_neg hb, if_pos (h.isLive b hbmem)]
      by_cases hmatch : ((s.items b).id : Int) = x
      · have hfound : s.hasId x b = true := decide_eq_true hmatch
        rw [if_pos hmatch, find?_cons_of_pos hfound, eraseP_cons_of_pos hfound]
        exact ⟨_, rfl, h.unlinked hrest, setNext_item s ptr (s.next b), rfl⟩
      have hnot : ¬s.hasId x b = true := fun hfound => hmatch (of_decide_eq_true hfound)
      have hall : (pre ++ [ptr]) ++ b :: rest = pre ++ ptr :: b :: rest := by
        rw [append_assoc, singleton_append]
      rw [if_neg hmatch, find?_cons_of_neg hnot, eraseP_cons_of_neg hnot]
      obtain ⟨s', hloop, hlinked, hitem, halloc⟩ :=
        @ih b (pre ++ [ptr]) (hall ▸ h) turns (Nat.lt_of_succ_lt_succ hturns)
      refine ⟨s', hloop, ?_, hitem, halloc⟩
      rw [append_assoc, singleton_append] at hlinked
      exact hlinked

lemma Linked.freed (h : s.Linked l) (hkept : s.Kept l) :
    ∃ s', s.freeTmp = some s' ∧ s'.Linked l ∧ s'.items = s.items ∧ s'.qhead = s.qhead := by
  rw [freeTmp]
  by_cases hnull : s.tmp = 0
  · rw [if_neg (not_not.mpr hnull)]
    exact ⟨s, rfl, h, rfl, rfl⟩
  obtain ⟨hlive, hout⟩ := hkept.resolve_left hnull
  rw [if_pos hnull, free_eq hlive]
  exact ⟨_, rfl, h.free hout, rfl, rfl⟩

lemma not_mem_eraseP_of_find? {p : Nat → Bool} (h : l.find? p = some b) (hnodup : l.Nodup) : b ∉ l.eraseP p := by
  obtain ⟨hb, m, n, rfl, hm⟩ := find?_eq_some_iff_append.mp h
  have hnone : ∀ c ∈ m, ¬p c = true := by
    intro c hc hp
    have hfalse := hm c hc
    rw [hp] at hfalse
    exact absurd hfalse (by decide)
  rw [eraseP_append_right _ hnone, eraseP_cons_of_pos hb]
  rw [nodup_append, nodup_cons] at hnodup
  intro hmem
  rcases mem_append.mp hmem with hmem | hmem
  · exact hnodup.2.2 b hmem b mem_cons_self rfl
  · exact hnodup.2.1.1 hmem

lemma removeItem_map (s : QueueHeap) (x : Int) (l : List Nat) :
    removeItem x (l.map s.item) = (if x < 0 then l.tail else l.eraseP (s.hasId x)).map s.item := by
  rw [removeItem]
  split
  · exact map_tail.symm
  · exact eraseP_map

lemma takenItem_map (s : QueueHeap) (x : Int) (l : List Nat) :
    takenItem x (l.map s.item) = (if x < 0 then l.head? else l.find? (s.hasId x)).map s.item := by
  rw [takenItem]
  split
  · exact head?_map
  · exact find?_map

lemma Linked.dequeueitem (h : s.Linked l) (hkept : s.Kept l) (x : Int) : ∃ s' r l', s.dequeueitem x = some (s', r) ∧
    s'.Linked l' ∧ s'.Kept l' ∧ l'.Sublist l ∧ s'.item = s.item ∧ l'.map s.item = removeItem x (l.map s.item) ∧
    takenItem x (l.map s.item) = (if r = 0 then none else some (s.item r)) ∧ (r ≠ 0 → r ∈ s'.allocated) := by
  rw [removeItem_map, takenItem_map]
  cases l with
  | nil =>
    have hempty : s.qhead = 0 := h.chain
    refine ⟨s, 0, [], ?_, h, hkept, Sublist.refl _, rfl, ?_, ?_, fun hne => absurd rfl hne⟩
    · rw [QueueHeap.dequeueitem, if_pos hempty]
    · simp only [tail_nil, eraseP_nil, ite_self]
    · simp only [head?_nil, find?_nil, ite_self, map_none, if_true]
  | cons a rest =>
    obtain ⟨s1, hfree, hlinked, hitems, hhead⟩ := h.freed hkept
    have ha0 : a ≠ 0 := h.ne_zero mem_cons_self
    have hqhead : s.qhead = a := h.chain.1
    have hitem : s1.item = s.item := by
      funext b
      rw [item, item, hitems]
    have hhas : s1.hasId x = s.hasId x := by
      funext b
      rw [hasId, hasId, hitem]
    have hlive : a ∈ s1.allocated := hlinked.live a mem_cons_self
    rw [QueueHeap.dequeueitem, if_neg (hqhead ▸ ha0), hfree]
    simp only [bind, Option.bind, hhead, hqhead]
    rw [if_pos (hlinked.isLive a mem_cons_self)]
    by_cases hfirst : x < 0 ∨ ((s1.items a).id : Int) = x
    · -- the first item
      rw [if_pos hfirst]
      have hrest : (if x < 0 then (a :: rest).tail else (a :: rest).eraseP (s.hasId x)) = rest := by
        by_cases hneg : x < 0
        · rw [if_pos hneg, tail_cons]
        have hfound : s.hasId x a = true := by
          rw [← hhas]
          exact decide_eq_true (hfirst.resolve_left hneg)
        rw [if_neg hneg, eraseP_cons_of_pos hfound]
      have hfor : (if x < 0 then (a :: rest).head? else (a :: rest).find? (s.hasId x)) = some a := by
        by_cases hneg : x < 0
        · rw [if_pos hneg, head?_cons]
        have hfound : s.hasId x a = true := by
          rw [← hhas]
          exact decide_eq_true (hfirst.resolve_left hneg)
        rw [if_neg hneg, find?_cons_of_pos hfound]
      obtain ⟨-, hbehead⟩ := hlinked.behead
      rw [hrest, hfor]
      refine ⟨_, a, rest, rfl, ⟨hbehead.chain, hbehead.nodup, hbehead.live, hbehead.count, hbehead.ids⟩,
        .inr ⟨hlive, h.nodup.notMem⟩, sublist_cons_self _ _, hitem, rfl, ?_, fun _ => hlive⟩
      rw [map_some, if_neg ha0]
    obtain ⟨hneg, hother⟩ := not_or.mp hfirst
    have hnot : ¬s.hasId x a = true := by
      rw [← hhas]
      exact fun hfound => hother (of_decide_eq_true hfound)
    obtain ⟨s2, hloop, hlinked2, hitem2, halloc2⟩ :=
      @Linked.unlinkLoop s1 a [] rest hlinked x s1.turns (Nat.lt_of_succ_lt hlinked.turns_lt)
    rw [hhas] at hloop hlinked2
    rw [if_neg hfirst, hloop, if_neg hneg, if_neg hneg, eraseP_cons_of_neg hnot,
      find?_cons_of_neg hnot]
    rw [nil_append] at hlinked2
    have hsub : (a :: rest.eraseP (s.hasId x)).Sublist (a :: rest) := eraseP_sublist.cons_cons _
    refine ⟨_, _, a :: rest.eraseP (s.hasId x), rfl,
      ⟨hlinked2.chain, hlinked2.nodup, hlinked2.live, hlinked2.count, hlinked2.ids⟩, ?_, hsub,
      hitem2.trans hitem, rfl, ?_, ?_⟩
    · cases hfind : rest.find? (s.hasId x) with
      | none => exact .inl rfl
      | some b =>
        have hb : b ∈ rest := mem_of_find?_eq_some hfind
        refine .inr ⟨?_, ?_⟩
        · rw [halloc2]
          exact hlinked.live b (mem_cons_of_mem _ hb)
        rw [mem_cons, not_or]
        refine ⟨?_, not_mem_eraseP_of_find? hfind h.nodup.of_cons⟩
        intro heq
        exact h.nodup.notMem (heq ▸ hb)
    · cases hfind : rest.find? (s.hasId x) with
      | none => rfl
      | some b =>
        have hb := h.ne_zero (mem_cons_of_mem a (mem_of_find?_eq_some hfind))
        rw [getD_some, if_neg hb, map_some]
    intro hne
    cases hfind : rest.find? (s.hasId x) with
    | none =>
      rw [hfind] at hne
      exact absurd rfl hne
    | some b =>
      rw [halloc2]
      exact hlinked.live b (mem_cons_of_mem _ (mem_of_find?_eq_some hfind))

/-! ### `timeoutqueue` -/

lemma Linked.timeoutLoop (h : s.Linked l) (hkept : s.Kept l) (now : Int)
    (hsorted : (l.map s.item).Pairwise (fun p q => p.timeout ≤ q.timeout)) {turns : Nat}
    (hturns : l.length < turns) : ∃ s' l', QueueHeap.timeoutLoop now turns s =
    some (s', (l.map s.item).filter (fun q => q.timeout ≤ now)) ∧ s'.Linked l' ∧ s'.Kept l' ∧ l'.Sublist l ∧
    s'.item = s.item ∧ l'.map s.item = (l.map s.item).filter (fun q => now < q.timeout) := by
  induction l generalizing s turns with
  | nil =>
    cases turns with
    | zero => exact absurd hturns (Nat.not_lt_zero _)
    | succ turns =>
      have hempty : s.qhead = 0 := h.chain
      refine ⟨s, [], ?_, h, hkept, Sublist.refl _, rfl, rfl⟩
      rw [QueueHeap.timeoutLoop, if_pos hempty]
      rfl
  | cons a l ih =>
    cases turns with
    | zero => exact absurd hturns (Nat.not_lt_zero _)
    | succ turns =>
      obtain ⟨hqhead, hbehead⟩ := h.behead
      have ha0 : a ≠ 0 := h.ne_zero mem_cons_self
      have hlive : a ∈ s.allocated := h.live a mem_cons_self
      rw [map_cons, pairwise_cons] at hsorted
      rw [QueueHeap.timeoutLoop, hqhead, if_neg ha0, if_pos (h.isLive a mem_cons_self), map_cons]
      by_cases hdue : (s.items a).timeout ≤ now
      · have hcalls : (s.item a :: l.map s.item).filter (fun q => q.timeout ≤ now) =
            s.item a :: (l.map s.item).filter (fun q => q.timeout ≤ now) :=
          filter_cons_of_pos (decide_eq_true hdue)
        have hleft : (s.item a :: l.map s.item).filter (fun q => now < q.timeout) =
            (l.map s.item).filter (fun q => now < q.timeout) := by
          apply filter_cons_of_neg
          rw [decide_eq_true_eq]
          exact not_lt.mpr hdue
        have hlinked : ({ s with
            qhead := s.next a
            qlen := s.qlen - 1
            allocated := s.allocated.erase a } : QueueHeap).Linked l := hbehead.free h.nodup.notMem
        have hkept' : ({ s with
            qhead := s.next a
            qlen := s.qlen - 1
            allocated := s.allocated.erase a } : QueueHeap).Kept l := by
          rcases hkept with hkept | ⟨hin, hout⟩
          · exact .inl hkept
          rw [mem_cons, not_or] at hout
          exact .inr ⟨(mem_erase_of_ne hout.1).mpr hin, hout.2⟩
        have hfree : ({ s with qhead := s.next a, qlen := s.qlen - 1 } : QueueHeap).free a = some { s with
            qhead := s.next a
            qlen := s.qlen - 1
            allocated := s.allocated.erase a } := if_pos hlive
        obtain ⟨s', l', hloop, hlinked', hkept'', hsub, hitem, hrest⟩ :=
          ih hlinked hkept' hsorted.2 (Nat.lt_of_succ_lt_succ hturns)
        refine ⟨s', l', ?_, hlinked', hkept'', hsub.cons _, hitem, hleft ▸ hrest⟩
        rw [if_pos hdue, hfree, hcalls]
        simp only [bind, Option.bind]
        rw [hloop]
        rfl
      · -- the items behind it have their times not before
        have hlater : ∀ q ∈ s.item a :: l.map s.item, now < q.timeout := by
          intro q hq
          rcases mem_cons.mp hq with rfl | hq
          · exact not_le.mp hdue
          · exact lt_of_lt_of_le (not_le.mp hdue) (hsorted.1 q hq)
        have hcalls : (s.item a :: l.map s.item).filter (fun q => q.timeout ≤ now) = [] := by
          rw [filter_eq_nil_iff]
          intro q hq
          rw [decide_eq_true_eq]
          exact not_le.mpr (hlater q hq)
        have hleft : (s.item a :: l.map s.item).filter (fun q => now < q.timeout) = s.item a :: l.map s.item := by
          rw [filter_eq_self]
          intro q hq
          exact decide_eq_true (hlater q hq)
        rw [if_neg hdue, hcalls, hleft]
        exact ⟨s, a :: l, rfl, h, hkept, Sublist.refl _, rfl, rfl⟩

end

end QueueHeap

end Vde
