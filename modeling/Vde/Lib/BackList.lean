import Mathlib.Data.List.Nodup

/-!
# Lists with back pointers

Singly linked lists whose nodes also know the link that points to them, so that a node can be
taken out without a search. A link is the head of one of several lists or the `next` field of a
node. `Chain hp k as` says that the list with head `k` consists of the nodes `as`; the operations
are specified by what they do to the chains.
-/

namespace Vde

open List Function

universe u

inductive Link where
  | head (k : Nat)
  | next (a : Nat)
  deriving DecidableEq

structure Node (α : Type u) where
  next : Option Nat
  prev : Link
  val : α

/-- The list heads and the nodes, by address; a free address holds `none`. -/
structure Heap (α : Type u) where
  heads : Nat → Option Nat
  cells : Nat → Option (Node α)

namespace Heap

variable {α : Type u}

def val (hp : Heap α) (a : Nat) : Option α := (hp.cells a).map Node.val

def write (hp : Heap α) (l : Link) (v : Option Nat) : Heap α :=
  match l with
  | .head k => { hp with heads := update hp.heads k v }
  | .next a =>
    { hp with cells := update hp.cells a ((hp.cells a).map (fun n => { n with next := v })) }

def setPrev (hp : Heap α) (v : Option Nat) (l : Link) : Heap α :=
  match v with
  | none => hp
  | some b =>
    { hp with cells := update hp.cells b ((hp.cells b).map (fun n => { n with prev := l })) }

/-- Take a node out of its list and free it. -/
def unlink (a : Nat) (hp : Heap α) : Heap α :=
  match hp.cells a with
  | none => hp
  | some old =>
    let hp := (hp.write old.prev old.next).setPrev old.next old.prev
    { hp with cells := update hp.cells a none }

def push (k a : Nat) (x : α) (hp : Heap α) : Heap α :=
  let hp' := hp.setPrev (hp.heads k) (.next a)
  { heads := update hp'.heads k (some a)
    cells := update hp'.cells a (some ⟨hp.heads k, .head k, x⟩) }

def setVal (a : Nat) (x : α) (hp : Heap α) : Heap α :=
  { hp with cells := update hp.cells a ((hp.cells a).map (fun n => { n with val := x })) }

/-- The first node from `e` on whose value satisfies `p`. -/
def walk (hp : Heap α) (p : α → Bool) : Nat → Option Nat → Option Nat
  | 0, _ => none
  | _ + 1, none => none
  | fuel + 1, some a =>
    match hp.cells a with
    | none => none
    | some n => if p n.val then some a else hp.walk p fuel n.next

/-- Visit the nodes from `e` on, with `next` read before the node is taken out when its value
satisfies `p`. -/
def sweep (p : α → Bool) : Nat → Option Nat → Heap α → Heap α
  | 0, _, hp => hp
  | _ + 1, none, hp => hp
  | fuel + 1, some a, hp =>
    let next := (hp.cells a).bind Node.next
    sweep p fuel next (if (hp.val a).any p then hp.unlink a else hp)

def Seg (cells : Nat → Option (Node α)) : Link → Option Nat → List Nat → Prop
  | _, e, [] => e = none
  | l, e, a :: as => e = some a ∧ ∃ n, cells a = some n ∧ n.prev = l ∧ Seg cells (.next a) n.next as

structure Chain (hp : Heap α) (k : Nat) (as : List Nat) : Prop where
  seg : Seg hp.cells (.head k) (hp.heads k) as
  nodup : as.Nodup

lemma seg_congr {cells cells' : Nat → Option (Node α)} {l : Link} {e : Option Nat} {as : List Nat}
    (h : ∀ a ∈ as, (cells' a).map (fun n => (n.next, n.prev)) = (cells a).map (fun n => (n.next, n.prev)))
    (hs : Seg cells l e as) : Seg cells' l e as := by
  induction as generalizing l e with
  | nil => exact hs
  | cons a as ih =>
    obtain ⟨he, n, hn, hprev, hrest⟩ := hs
    have ha := h a (by simp)
    rw [hn] at ha
    obtain ⟨n', hn', hpair⟩ := Option.map_eq_some_iff.mp ha
    obtain ⟨hnext', hprev'⟩ := Prod.mk.inj hpair
    refine ⟨he, n', hn', hprev'.trans hprev, ?_⟩
    rw [hnext']
    exact ih (fun b hb => h b (by simp [hb])) hrest

section

variable {cells : Nat → Option (Node α)} {l : Link} {e : Option Nat} {as : List Nat} (hs : Seg cells l e as)

include hs

lemma seg_live : ∀ a ∈ as, cells a ≠ none := by
  induction as generalizing l e with
  | nil => simp
  | cons a as ih =>
    obtain ⟨_, n, hn, _, hrest⟩ := hs
    intro b hb
    rcases mem_cons.mp hb with rfl | hb
    · simp [hn]
    · exact ih hrest b hb

lemma seg_head : e = as.head? := by
  cases as with
  | nil => exact hs
  | cons a as => exact hs.1

end

/-! ## Taking a node out -/

lemma write_heads (hp : Heap α) (l : Link) (v : Option Nat) (k : Nat) :
    (hp.write l v).heads k = if l = .head k then v else hp.heads k := by
  cases l with
  | head j =>
    by_cases hk : k = j
    · subst hk; simp [write]
    · simp [write, hk, Ne.symm hk]
  | next a => simp [write]

lemma write_cells (hp : Heap α) (l : Link) (v : Option Nat) (b : Nat) :
    (hp.write l v).cells b =
      (hp.cells b).map (fun n => { n with next := if l = .next b then v else n.next }) := by
  cases l with
  | head j => simp [write]
  | next a =>
    by_cases hb : b = a
    · subst hb; simp [write]
    · simp [write, hb, Ne.symm hb]

lemma setPrev_heads (hp : Heap α) (v : Option Nat) (l : Link) : (hp.setPrev v l).heads = hp.heads := by
  cases v <;> rfl

lemma setPrev_cells (hp : Heap α) (v : Option Nat) (l : Link) (b : Nat) :
    (hp.setPrev v l).cells b =
      (hp.cells b).map (fun n => { n with prev := if v = some b then l else n.prev }) := by
  cases v with
  | none => simp [setPrev]
  | some a =>
    by_cases hb : b = a
    · subst hb; simp [setPrev]
    · simp [setPrev, hb, Ne.symm hb]

lemma unlink_heads {hp : Heap α} {a : Nat} {old : Node α} (ha : hp.cells a = some old) (k : Nat) :
    (hp.unlink a).heads k = if old.prev = .head k then old.next else hp.heads k := by
  simp only [unlink, ha, setPrev_heads, write_heads]

lemma unlink_cells {hp : Heap α} {a : Nat} {old : Node α} (ha : hp.cells a = some old) {b : Nat}
    (hb : b ≠ a) : (hp.unlink a).cells b = (hp.cells b).map (fun n =>
      ⟨if old.prev = .next b then old.next else n.next,
        if old.next = some b then old.prev else n.prev, n.val⟩) := by
  simp only [unlink, ha, update_of_ne hb, setPrev_cells, write_cells, Option.map_map,
    comp_def]

lemma unlink_val {hp : Heap α} {a b : Nat} (hb : b ≠ a) : (hp.unlink a).val b = hp.val b := by
  cases ha : hp.cells a with
  | none => simp [unlink, ha]
  | some old => simp [val, unlink_cells ha hb, comp_def]

lemma seg_unlink {c c' : Nat → Option (Node α)} {a : Nat} {old : Node α} (ha : c a = some old)
    (hc' : ∀ b, b ≠ a → c' b = (c b).map (fun n =>
      ⟨if old.prev = .next b then old.next else n.next,
        if old.next = some b then old.prev else n.prev, n.val⟩))
    {xs ys : List Nat} {l : Link} {e : Option Nat} (hs : Seg c l e (xs ++ a :: ys))
    (hnd : (xs ++ a :: ys).Nodup) (hl : ∀ b ∈ xs ++ a :: ys, l ≠ .next b) :
    Seg c' l (if xs = [] then old.next else e) (xs ++ ys) ∧ old.next = ys.head? ∧
      ((xs = [] ∧ old.prev = l) ∨ ∃ z ∈ xs, old.prev = .next z) := by
  induction xs generalizing l e with
  | nil =>
    obtain ⟨he, n, hn, hprev, hrest⟩ := hs
    obtain rfl : n = old := by simpa [hn] using ha
    refine ⟨?_, seg_head hrest, .inl ⟨rfl, hprev⟩⟩
    rw [if_pos rfl, nil_append]
    cases ys with
    | nil => exact hrest
    | cons b ys =>
      obtain ⟨hnext, m, hm, hmprev, htail⟩ := hrest
      simp only [nil_append, nodup_cons, mem_cons, not_or] at hnd
      have hba : b ≠ a := fun h => hnd.1.1 h.symm
      have hlb : l ≠ .next b := hl b (by simp)
      refine ⟨hnext, _, by rw [hc' b hba, hm]; rfl, by simp [hnext, hprev], ?_⟩
      simp only [hprev, if_neg hlb]
      refine seg_congr (fun d hd => ?_) htail
      have hda : d ≠ a := fun h => hnd.1.2 (h ▸ hd)
      have hdb : d ≠ b := fun h => hnd.2.1 (h ▸ hd)
      have hld : l ≠ .next d := hl d (by simp [hd])
      rw [hc' d hda]
      cases c d <;> simp [hprev, hld, hnext, Ne.symm hdb]
  | cons x xs ih =>
    obtain ⟨he, n, hn, hprev, hrest⟩ := hs
    rw [cons_append, nodup_cons] at hnd
    have hnext : ∀ b ∈ xs ++ a :: ys, Link.next x ≠ .next b := by
      intro b hb h
      obtain rfl : x = b := Link.next.inj h
      exact hnd.1 hb
    obtain ⟨hseg, hhead, hplace⟩ := ih hrest hnd.2 hnext
    have hxa : x ≠ a := fun h => hnd.1 (by simp [h])
    have hxys : old.next ≠ some x := by
      intro h
      rw [hhead] at h
      have hmem : x ∈ ys := mem_of_head? h
      exact hnd.1 (by simp [hmem])
    refine ⟨?_, hhead, .inr ?_⟩
    · rw [if_neg (by simp), cons_append]
      refine ⟨he, _, by rw [hc' x hxa, hn]; rfl, by simp [hxys, hprev], ?_⟩
      dsimp only
      rcases hplace with ⟨hnil, hpl⟩ | ⟨z, hz, hpl⟩
      · rw [if_pos hpl]
        simpa [hnil] using hseg
      have hzx : z ≠ x := fun h => hnd.1 (by simp [← h, hz])
      have hne : xs ≠ [] := ne_nil_of_mem hz
      rw [if_neg (by rw [hpl]; simpa using hzx)]
      simpa [hne] using hseg
    rcases hplace with ⟨_, hpl⟩ | ⟨z, hz, hpl⟩
    · exact ⟨x, by simp, hpl⟩
    · exact ⟨z, by simp [hz], hpl⟩

theorem Chain.unlink {hp : Heap α} {k a : Nat} {xs ys : List Nat}
    (h : Chain hp k (xs ++ a :: ys)) : Chain (hp.unlink a) k (xs ++ ys) := by
  have hlive := seg_live h.seg a (by simp)
  obtain ⟨old, ha⟩ := Option.ne_none_iff_exists'.mp hlive
  obtain ⟨hseg, -, hplace⟩ := seg_unlink ha (fun b hb => unlink_cells ha hb) h.seg h.nodup (by simp)
  refine ⟨?_, ?_⟩
  · rw [unlink_heads ha]
    rcases hplace with ⟨hnil, hpl⟩ | ⟨z, hz, hpl⟩
    · rw [if_pos hpl]
      simpa [hnil] using hseg
    have hne : xs ≠ [] := ne_nil_of_mem hz
    rw [if_neg (by simp [hpl])]
    simpa [hne] using hseg
  · exact h.nodup.sublist (Sublist.append_left (sublist_cons_self a ys) xs)

theorem Chain.unlink_other {hp : Heap α} {k j a : Nat} {as bs : List Nat} (h : Chain hp k as) (ha : a ∈ as)
    (hb : Chain hp j bs) (hjk : j ≠ k) (hdisj : ∀ b ∈ bs, b ∉ as) : Chain (hp.unlink a) j bs := by
  obtain ⟨xs, ys, rfl⟩ := append_of_mem ha
  have hlive := seg_live h.seg a (by simp)
  obtain ⟨old, hold⟩ := Option.ne_none_iff_exists'.mp hlive
  obtain ⟨-, hhead, hplace⟩ :=
    seg_unlink hold (fun b hb => unlink_cells hold hb) h.seg h.nodup (by simp)
  have hnotPrev : ∀ b ∈ bs, old.prev ≠ .next b := by
    intro b hbs he
    rcases hplace with ⟨_, hpl⟩ | ⟨z, hz, hpl⟩
    · simp [hpl] at he
    obtain rfl : z = b := by simpa [hpl] using he
    exact hdisj z hbs (by simp [hz])
  have hnotNext : ∀ b ∈ bs, old.next ≠ some b := by
    intro b hbs he
    rw [hhead] at he
    have hmem : b ∈ ys := mem_of_head? he
    exact hdisj b hbs (by simp [hmem])
  refine ⟨?_, hb.nodup⟩
  have hheads : (hp.unlink a).heads j = hp.heads j := by
    rw [unlink_heads hold, if_neg]
    intro he
    rcases hplace with ⟨_, hpl⟩ | ⟨z, hz, hpl⟩
    · exact hjk (by simpa [hpl] using he.symm)
    · simp [hpl] at he
  rw [hheads]
  refine seg_congr (fun b hbs => ?_) hb.seg
  have hba : b ≠ a := fun he => hdisj b hbs (by simp [he])
  rw [unlink_cells hold hba]
  cases hp.cells b <;> simp [hnotPrev b hbs, hnotNext b hbs]

/-! ## Putting a node in, and replacing a value -/

lemma push_cells {hp : Heap α} {k a b : Nat} {x : α} (hb : b ≠ a) :
    (hp.push k a x).cells b = (hp.cells b).map
      (fun n => { n with prev := if hp.heads k = some b then .next a else n.prev }) := by
  simp only [push, update_of_ne hb, setPrev_cells]

lemma push_val_self (hp : Heap α) (k a : Nat) (x : α) : (hp.push k a x).val a = some x := by
  simp [val, push]

lemma push_val {hp : Heap α} {k a b : Nat} {x : α} (hb : b ≠ a) : (hp.push k a x).val b = hp.val b := by
  simp [val, push_cells hb, comp_def]

theorem Chain.push {hp : Heap α} {k a : Nat} {as : List Nat} (h : Chain hp k as)
    (ha : hp.cells a = none) (x : α) : Chain (hp.push k a x) k (a :: as) := by
  have hnot : a ∉ as := fun hmem => seg_live h.seg a hmem ha
  have hself : (hp.push k a x).cells a = some ⟨hp.heads k, .head k, x⟩ := by
    simp [Heap.push]
  refine ⟨⟨by simp [Heap.push], _, hself, rfl, ?_⟩, nodup_cons.mpr ⟨hnot, h.nodup⟩⟩
  have hseg := h.seg
  have hnd := h.nodup
  have hhead := seg_head hseg
  cases as with
  | nil => exact hseg
  | cons b bs =>
    obtain ⟨he, n, hn, -, hrest⟩ := hseg
    have hba : b ≠ a := fun h => hnot (by simp [h])
    refine ⟨he, _, by rw [push_cells hba, hn]; rfl, by simp [he], ?_⟩
    refine seg_congr (fun d hd => ?_) hrest
    have hda : d ≠ a := fun h => hnot (by simp [← h, hd])
    have hdb : b ≠ d := fun h => (nodup_cons.mp hnd).1 (h ▸ hd)
    rw [push_cells hda]
    cases hp.cells d <;> simp [he, hdb]

theorem Chain.push_other {hp : Heap α} {k j a : Nat} {as bs : List Nat} (h : Chain hp k as) (ha : hp.cells a = none)
    (hb : Chain hp j bs) (hjk : j ≠ k) (hdisj : ∀ b ∈ bs, b ∉ as) (x : α) : Chain (hp.push k a x) j bs := by
  have hnot : a ∉ bs := fun hmem => seg_live hb.seg a hmem ha
  have hheads : (hp.push k a x).heads j = hp.heads j := by
    simp [Heap.push, hjk, setPrev_heads]
  refine ⟨?_, hb.nodup⟩
  rw [hheads]
  refine seg_congr (fun d hd => ?_) hb.seg
  have hda : d ≠ a := fun h => hnot (h ▸ hd)
  have hdk : hp.heads k ≠ some d := by
    intro he
    rw [seg_head h.seg] at he
    exact hdisj d hd (mem_of_head? he)
  rw [push_cells hda]
  cases hp.cells d <;> simp [hdk]

lemma setVal_val {hp : Heap α} {a : Nat} (x : α) (ha : hp.cells a ≠ none) (b : Nat) :
    (hp.setVal a x).val b = if b = a then some x else hp.val b := by
  obtain ⟨n, hn⟩ := Option.ne_none_iff_exists'.mp ha
  by_cases hb : b = a
  · subst hb; simp [val, setVal, hn]
  · simp [val, setVal, hb]

theorem Chain.setVal {hp : Heap α} {k : Nat} {as : List Nat} (h : Chain hp k as) (a : Nat) (x : α) :
    Chain (hp.setVal a x) k as := by
  refine ⟨?_, h.nodup⟩
  refine seg_congr (fun b _ => ?_) h.seg
  by_cases hb : b = a
  · subst hb
    cases hc : hp.cells b <;> simp [Heap.setVal, hc]
  · simp [Heap.setVal, hb]

/-! ## Searching and sweeping -/

theorem walk_eq_find {hp : Heap α} {p : α → Bool} {fuel : Nat} {l : Link} {e : Option Nat}
    {as : List Nat} (hs : Seg hp.cells l e as) (hfuel : as.length ≤ fuel) :
    hp.walk p fuel e = as.find? (fun a => (hp.val a).any p) := by
  induction as generalizing l e fuel with
  | nil =>
    have he : e = none := hs
    cases fuel <;> simp [walk, he]
  | cons a as ih =>
    obtain ⟨he, n, hn, -, hrest⟩ := hs
    obtain ⟨fuel, rfl⟩ : ∃ f, fuel = f + 1 := ⟨fuel - 1, by simp at hfuel; omega⟩
    have hval : hp.val a = some n.val := by simp [val, hn]
    have hrec := ih hrest (by simpa using hfuel)
    rw [he, walk, hn, find?_cons, hval]
    cases hp' : p n.val
    · simpa [hp'] using hrec
    · simp [hp']

/-- Sweeping keeps the nodes whose value does not satisfy `p`, in order, and their values. The
induction is over the nodes still to be visited; those of `kept` have been passed already. -/
theorem sweep_spec {p : α → Bool} {k : Nat} {rest : List Nat} : ∀ {hp : Heap α} {kept : List Nat} {fuel : Nat},
    Chain hp k (kept ++ rest) → rest.length ≤ fuel →
    Chain (sweep p fuel rest.head? hp) k (kept ++ rest.filter (fun a => !(hp.val a).any p)) ∧
    (∀ j bs, j ≠ k → Chain hp j bs → (∀ b ∈ bs, b ∉ kept ++ rest) → Chain (sweep p fuel rest.head? hp) j bs) ∧ ∀ b,
    (b ∉ rest ∨ (hp.val b).any p = false) → (sweep p fuel rest.head? hp).val b = hp.val b := by
  induction rest with
  | nil =>
    intro hp kept fuel h _
    cases fuel <;> exact ⟨by simpa [sweep] using h, fun _ _ _ hb _ => hb, fun _ _ => rfl⟩
  | cons a rest ih =>
    intro hp kept fuel h hfuel
    obtain ⟨fuel, rfl⟩ : ∃ f, fuel = f + 1 := ⟨fuel - 1, by simp at hfuel; omega⟩
    have hnd := h.nodup
    have hanot : a ∉ rest := by
      have := (nodup_append.mp hnd).2.1
      exact (nodup_cons.mp this).1
    have hlive := seg_live h.seg a (by simp)
    obtain ⟨n, hn⟩ := Option.ne_none_iff_exists'.mp hlive
    have hnext : (hp.cells a).bind Node.next = rest.head? := by
      have := (seg_unlink hn (fun b hb => unlink_cells hn hb) h.seg hnd (by simp)).2.1
      simpa [hn] using this
    have hlen : rest.length ≤ fuel := by simpa using hfuel
    rw [head?_cons, sweep, hnext]
    cases hpa : (hp.val a).any p
    · -- the node stays and joins the nodes already passed
      have h' : Chain hp k ((kept ++ [a]) ++ rest) := by simpa using h
      obtain ⟨hchain, hother, hval⟩ := ih h' hlen
      simp only [Bool.false_eq_true, if_false]
      refine ⟨by simpa [hpa] using hchain, fun j bs hj hb hd => ?_, fun b hb => ?_⟩
      · exact hother j bs hj hb (by simpa using hd)
      refine hval b ?_
      rcases hb with hb | hb
      · exact .inl (fun hmem => hb (by simp [hmem]))
      · exact .inr hb
    -- the node goes; the values of the others, and so the sweep of the rest, are unchanged
    have h' : Chain (hp.unlink a) k (kept ++ rest) := h.unlink
    obtain ⟨hchain, hother, hval⟩ := ih h' hlen
    have hvals : ∀ b ∈ rest, (hp.unlink a).val b = hp.val b :=
      fun b hb => unlink_val (fun he => hanot (he ▸ hb))
    have hfilter : rest.filter (fun b => !((hp.unlink a).val b).any p) =
        rest.filter (fun b => !(hp.val b).any p) :=
      filter_congr (fun b hb => by rw [hvals b hb])
    rw [hfilter] at hchain
    simp only [if_true]
    refine ⟨by simpa [hpa] using hchain, fun j bs hj hb hd => ?_, fun b hb => ?_⟩
    · refine hother j bs hj (h.unlink_other (by simp) hb hj hd) ?_
      intro b hbs hmem
      exact hd b hbs (by simp only [mem_append, mem_cons] at hmem ⊢; tauto)
    have hba : b ≠ a := by
      rintro rfl
      rcases hb with hb | hb
      · exact hb (by simp)
      rw [hpa] at hb
      cases hb
    rw [hval b ?_, unlink_val hba]
    rw [unlink_val hba]
    rcases hb with hb | hb
    · exact .inl (fun hmem => hb (by simp [hmem]))
    · exact .inr hb

end Heap

end Vde
