import Mathlib.Data.List.Nodup
import Mathlib.Data.List.Perm.Subperm

/-!
# Lists threaded through memory

Records at addresses are linked by one of their fields; the address `0` ends a list. On a heap they are allocated,
linked and freed, and an access to a record that is not allocated has no result.
-/

namespace Vde

open List Function

/-- The addresses from `a` on, as many as there are links to follow and at most as many as given. -/
def followChain (next : Nat → Nat) : Nat → Nat → List Nat
  | 0, _ => []
  | turns + 1, a => if a = 0 then [] else a :: followChain next turns (next a)

/-- A search along the links from `a`: the first address that `stop` holds of, or `0`. It fails where a record
is not live, and when the turns are used up. -/
def walkChain (live : Nat → Bool) (next : Nat → Nat) (stop : Nat → Bool) : Nat → Nat → Option Nat
  | 0, _ => none
  | turns + 1, a =>
    if a = 0 then some 0
    else if live a then if stop a then some a else walkChain live next stop turns (next a)
    else none

def NextChain (next : Nat → Nat) : Nat → List Nat → Prop
  | a, [] => a = 0
  | a, b :: l => a = b ∧ b ≠ 0 ∧ NextChain next (next b) l

section

variable {next : Nat → Nat} {a : Nat} {l : List Nat}

lemma NextChain.congr {next' : Nat → Nat} (h : NextChain next a l) (heq : ∀ b ∈ l, next' b = next b) :
    NextChain next' a l := by
  induction l generalizing a with
  | nil => exact h
  | cons b l ih =>
    obtain ⟨hab, hb, hrest⟩ := h
    refine ⟨hab, hb, ?_⟩
    rw [heq b mem_cons_self]
    exact ih hrest (fun c hc => heq c (mem_cons_of_mem _ hc))

lemma NextChain.push (h : NextChain next a l) {b : Nat} (hb : b ≠ 0) (hnew : b ∉ l) {next' : Nat → Nat}
    (hlink : next' b = a) (hother : ∀ c, c ≠ b → next' c = next c) : NextChain next' b (b :: l) := by
  refine ⟨rfl, hb, ?_⟩
  rw [hlink]
  exact h.congr (fun c hc => hother c (fun he => hnew (he ▸ hc)))

lemma NextChain.pop (h : NextChain next a l) (ha : a ≠ 0) : ∃ l', l = a :: l' ∧ NextChain next (next a) l' := by
  cases l with
  | nil => exact absurd h ha
  | cons b l =>
    obtain ⟨rfl, -, hrest⟩ := h
    exact ⟨l, rfl, hrest⟩

lemma NextChain.behind {m : List Nat} {p : Nat} (h : NextChain next a (l ++ p :: m)) : p ≠ 0 ∧ NextChain next (next p) m := by
  induction l generalizing a with
  | nil => exact ⟨h.2.1, h.2.2⟩
  | cons b l ih => exact ih h.2.2

lemma NextChain.relink {m m' : List Nat} {p : Nat} {next' : Nat → Nat} (h : NextChain next a (l ++ p :: m))
    (hbehind : NextChain next' (next' p) m') (hother : ∀ c ∈ l, next' c = next c) :
    NextChain next' a (l ++ p :: m') := by
  induction l generalizing a with
  | nil => exact ⟨h.1, h.2.1, hbehind⟩
  | cons b l ih =>
    obtain ⟨hab, hb, hrest⟩ := h
    refine ⟨hab, hb, ?_⟩
    rw [hother b mem_cons_self]
    exact ih hrest (fun c hc => hother c (mem_cons_of_mem _ hc))

lemma followChain_eq {turns : Nat} (h : NextChain next a l) (hturns : l.length ≤ turns) :
    followChain next turns a = l := by
  induction l generalizing a turns with
  | nil =>
    cases turns with
    | zero => rfl
    | succ turns =>
      have ha : a = 0 := h
      rw [followChain, if_pos ha]
  | cons b l ih =>
    obtain ⟨rfl, hb, hrest⟩ := h
    cases turns with
    | zero => exact absurd hturns (Nat.not_succ_le_zero _)
    | succ turns => rw [followChain, if_neg hb, ih hrest (Nat.le_of_succ_le_succ hturns)]

lemma walkChain_eq {live stop : Nat → Bool} {turns : Nat} (h : NextChain next a l) (hlive : ∀ b ∈ l, live b = true)
    (hturns : l.length < turns) : walkChain live next stop turns a = some ((l.find? stop).getD 0) := by
  induction l generalizing a turns with
  | nil =>
    have ha : a = 0 := h
    cases turns with
    | zero => exact absurd hturns (Nat.not_lt_zero _)
    | succ turns =>
      rw [walkChain, if_pos ha]
      rfl
  | cons b l ih =>
    obtain ⟨rfl, hb, hrest⟩ := h
    cases turns with
    | zero => exact absurd hturns (Nat.not_lt_zero _)
    | succ turns =>
      rw [walkChain, if_neg hb, if_pos (hlive a mem_cons_self), find?_cons]
      cases hstop : stop a with
      | true => rfl
      | false =>
        exact ih hrest (fun c hc => hlive c (mem_cons_of_mem _ hc)) (Nat.lt_of_succ_lt_succ hturns)

lemma NextChain.find_last {t : Nat} (h : NextChain next a (l ++ [t])) :
    (l ++ [t]).find? (fun b => next b == 0) = some t := by
  induction l generalizing a with
  | nil =>
    have hlast : (next t == 0) = true := beq_iff_eq.mpr h.2.2
    rw [nil_append, find?_cons, hlast]
  | cons b l ih =>
    obtain ⟨-, -, hrest⟩ := h
    have hlink : (next b == 0) = false := by
      rw [beq_eq_false_iff_ne]
      cases l with
      | nil => exact hrest.1 ▸ hrest.2.1
      | cons c l => exact hrest.1 ▸ hrest.2.1
    rw [cons_append, find?_cons, hlink]
    exact ih hrest

end

/-! ## Records on a heap -/

universe u

structure HeapCell (ρ : Type u) where
  val : ρ
  next : Nat

structure LinkedHeap (ρ : Type u) where
  cells : Nat → HeapCell ρ
  allocated : List Nat
  head : Nat

namespace LinkedHeap

variable {ρ : Type u}

def next (s : LinkedHeap ρ) (a : Nat) : Nat := (s.cells a).next

def val (s : LinkedHeap ρ) (a : Nat) : ρ := (s.cells a).val

def load (a : Nat) (s : LinkedHeap ρ) : Option (HeapCell ρ) := if a ∈ s.allocated then some (s.cells a) else none

def put (a : Nat) (c : HeapCell ρ) (s : LinkedHeap ρ) : LinkedHeap ρ := { s with cells := update s.cells a c }

def store (a : Nat) (c : HeapCell ρ) (s : LinkedHeap ρ) : Option (LinkedHeap ρ) :=
  if a ∈ s.allocated then some (s.put a c) else none

def setNext (a n : Nat) (s : LinkedHeap ρ) : Option (LinkedHeap ρ) := s.store a ⟨s.val a, n⟩

def setVal (a : Nat) (v : ρ) (s : LinkedHeap ρ) : Option (LinkedHeap ρ) := s.store a ⟨v, s.next a⟩

def malloc (a : Nat) (s : LinkedHeap ρ) : LinkedHeap ρ := { s with allocated := a :: s.allocated }

def free (a : Nat) (s : LinkedHeap ρ) : Option (LinkedHeap ρ) :=
  if a ∈ s.allocated then some { s with allocated := s.allocated.filter fun b => b != a } else none

/-- A loop that comes by more records than there are goes around in circles. -/
def turns (s : LinkedHeap ρ) : Nat := s.allocated.length + 1

/-- The first record of the list that `stop` holds of, or `0`. -/
def search (stop : Nat → Bool) (s : LinkedHeap ρ) : Option Nat :=
  walkChain (fun a => decide (a ∈ s.allocated)) s.next stop s.turns s.head

/-- A loop with a pointer to the record before: where `stop` holds, or at the end. -/
def seek (stop : Nat → Bool) (s : LinkedHeap ρ) : Nat → Nat → Nat → Option (Nat × Nat)
  | 0, _, _ => none
  | turns + 1, a, q =>
    if a = 0 then some (0, q)
    else if a ∈ s.allocated then if stop a then some (a, q) else seek stop s turns (s.next a) a
    else none

def contents (s : LinkedHeap ρ) : List ρ := (followChain s.next s.allocated.length s.head).map s.val

structure Linked (s : LinkedHeap ρ) (l : List Nat) : Prop where
  chain : NextChain s.next s.head l
  nodup : l.Nodup
  live : ∀ a ∈ l, a ∈ s.allocated

def relink (pre : List Nat) (n : Nat) (s : LinkedHeap ρ) : LinkedHeap ρ :=
  match pre.getLast? with
  | none => { s with head := n }
  | some q => s.put q ⟨s.val q, n⟩

variable {s : LinkedHeap ρ} {l pre m : List Nat} {a b n : Nat}

lemma load_eq (ha : a ∈ s.allocated) : s.load a = some (s.cells a) := if_pos ha

lemma store_eq (ha : a ∈ s.allocated) (c : HeapCell ρ) : s.store a c = some (s.put a c) := if_pos ha

@[simp] lemma put_self (a : Nat) (c : HeapCell ρ) (s : LinkedHeap ρ) : (s.put a c).cells a = c := update_self ..

lemma put_of_ne (h : b ≠ a) (c : HeapCell ρ) (s : LinkedHeap ρ) : (s.put a c).cells b = s.cells b := update_of_ne h ..

lemma Linked.length_le (h : s.Linked l) : l.length ≤ s.allocated.length := (h.nodup.subperm h.live).length_le

lemma Linked.turns_lt (h : s.Linked l) : l.length < s.turns := Nat.lt_succ_of_le h.length_le

lemma Linked.search_eq (h : s.Linked l) (stop : Nat → Bool) : s.search stop = some ((l.find? stop).getD 0) :=
  walkChain_eq h.chain (fun a ha => decide_eq_true (h.live a ha)) h.turns_lt

lemma seek_none {stop : Nat → Bool} {turns q : Nat} (h : NextChain s.next a l) (hlive : ∀ b ∈ l, b ∈ s.allocated)
    (hno : ∀ b ∈ l, stop b = false) (hturns : l.length < turns) : ∃ q', s.seek stop turns a q = some (0, q') := by
  induction l generalizing a q turns with
  | nil =>
    obtain ⟨turns, rfl⟩ := Nat.exists_eq_add_one_of_ne_zero (Nat.ne_zero_of_lt hturns)
    have hend : a = 0 := h
    exact ⟨q, by rw [seek, if_pos hend]⟩
  | cons b l ih =>
    obtain ⟨turns, rfl⟩ := Nat.exists_eq_add_one_of_ne_zero (Nat.ne_zero_of_lt hturns)
    obtain ⟨rfl, h0, hrest⟩ := h
    rw [seek, if_neg h0, if_pos (hlive a mem_cons_self), hno a mem_cons_self, if_neg Bool.false_ne_true]
    exact ih hrest (fun b hb => hlive b (mem_cons_of_mem _ hb)) (fun b hb => hno b (mem_cons_of_mem _ hb))
      (Nat.lt_of_succ_lt_succ hturns)

lemma seek_found {stop : Nat → Bool} {turns q : Nat} {k : List Nat} (h : NextChain s.next a (k ++ b :: m))
    (hlive : ∀ c ∈ k ++ b :: m, c ∈ s.allocated) (hno : ∀ c ∈ k, stop c = false) (hb : stop b = true)
    (hturns : k.length < turns) : s.seek stop turns a q = some (b, k.getLast?.getD q) := by
  induction k generalizing a q turns with
  | nil =>
    obtain ⟨turns, rfl⟩ := Nat.exists_eq_add_one_of_ne_zero (Nat.ne_zero_of_lt hturns)
    obtain ⟨rfl, h0, -⟩ := h
    rw [seek, if_neg h0, if_pos (hlive a mem_cons_self), if_pos hb]
    rfl
  | cons c k ih =>
    obtain ⟨turns, rfl⟩ := Nat.exists_eq_add_one_of_ne_zero (Nat.ne_zero_of_lt hturns)
    obtain ⟨rfl, h0, hrest⟩ := h
    rw [seek, if_neg h0, if_pos (hlive a mem_cons_self), hno a mem_cons_self, if_neg Bool.false_ne_true,
      ih hrest (fun c hc => hlive c (mem_cons_of_mem _ hc)) (fun c hc => hno c (mem_cons_of_mem _ hc))
        (Nat.lt_of_succ_lt_succ hturns), getLast?_cons]
    rfl

section

variable (h : s.Linked l)

include h

lemma Linked.contents_eq : s.contents = l.map s.val := by
  rw [contents, followChain_eq h.chain h.length_le]

lemma Linked.unique {l' : List Nat} (h' : s.Linked l') : l = l' :=
  (followChain_eq h.chain h.length_le).symm.trans (followChain_eq h'.chain h'.length_le)

lemma Linked.ne_zero (ha : a ∈ l) : a ≠ 0 := by
  obtain ⟨m, n, rfl⟩ := append_of_mem ha
  exact h.chain.behind.1

lemma Linked.malloc (a : Nat) : (s.malloc a).Linked l :=
  ⟨h.chain, h.nodup, fun b hb => mem_cons_of_mem _ (h.live b hb)⟩

lemma Linked.put (ha : a ∉ l) (c : HeapCell ρ) : (s.put a c).Linked l := by
  refine ⟨h.chain.congr fun b hb => ?_, h.nodup, h.live⟩
  have hne : b ≠ a := fun heq => ha (heq ▸ hb)
  rw [next, put_of_ne hne]
  rfl

lemma Linked.setVal (a : Nat) (v : ρ) : (s.put a ⟨v, s.next a⟩).Linked l := by
  refine ⟨h.chain.congr fun b _ => ?_, h.nodup, h.live⟩
  by_cases hb : b = a
  · rw [hb, next, put_self]
  rw [next, put_of_ne hb]
  rfl

lemma Linked.free (ha : a ∉ l) :
    ({ s with allocated := s.allocated.filter fun b => b != a } : LinkedHeap ρ).Linked l := by
  refine ⟨h.chain, h.nodup, fun b hb => mem_filter.mpr ⟨h.live b hb, ?_⟩⟩
  rw [bne_iff_ne]
  exact fun heq => ha (heq ▸ hb)

end

lemma relink_val (pre : List Nat) (n : Nat) (s : LinkedHeap ρ) : (s.relink pre n).val = s.val := by
  funext b
  rw [LinkedHeap.relink]
  split
  · rfl
  next q _ =>
  by_cases hb : b = q
  · rw [hb, val, put_self]
  rw [val, put_of_ne hb]
  rfl

@[simp] lemma relink_allocated (pre : List Nat) (n : Nat) (s : LinkedHeap ρ) :
    (s.relink pre n).allocated = s.allocated := by
  rw [LinkedHeap.relink]
  split <;> rfl

lemma Linked.relink {m' : List Nat} (h : s.Linked (pre ++ m)) (hm' : NextChain s.next n m')
    (hnodup : (pre ++ m').Nodup) (hlive : ∀ b ∈ m', b ∈ s.allocated) : (s.relink pre n).Linked (pre ++ m') := by
  refine ⟨?_, hnodup, fun b hb => ?_⟩
  · rcases eq_nil_or_concat pre with rfl | ⟨k, q, rfl⟩
    · exact hm'
    rw [concat_eq_append] at h hnodup ⊢
    rw [LinkedHeap.relink, getLast?_append_of_ne_nil _ (cons_ne_nil q []), getLast?_singleton]
    have hchain := h.chain
    rw [append_assoc, singleton_append] at hnodup hchain ⊢
    rw [nodup_append, nodup_cons] at hnodup
    have hself : (s.put q ⟨s.val q, n⟩).next q = n := by rw [next, put_self]
    have hother {c : Nat} (hc : c ≠ q) : (s.put q ⟨s.val q, n⟩).next c = s.next c := by
      rw [next, put_of_ne hc]
      rfl
    refine hchain.relink ?_ fun c hc => hother (hnodup.2.2 c hc q mem_cons_self)
    rw [hself]
    exact hm'.congr fun c hc => hother fun heq => hnodup.2.1.1 (heq ▸ hc)
  rw [relink_allocated]
  rcases mem_append.mp hb with hb | hb
  · exact h.live b (mem_append_left _ hb)
  · exact hlive b hb

lemma Linked.unlink (h : s.Linked (pre ++ a :: m)) : (s.relink pre (s.next a)).Linked (pre ++ m) := by
  have hsub : (pre ++ m).Sublist (pre ++ a :: m) := Sublist.append_left (sublist_cons_self a m) pre
  exact h.relink h.chain.behind.2 (hsub.nodup h.nodup) fun b hb =>
    h.live b (mem_append_right _ (mem_cons_of_mem a hb))

lemma Linked.insert (h : s.Linked (pre ++ m)) (hm : NextChain s.next n m) (ha : a ∈ s.allocated) (h0 : a ≠ 0)
    (hnew : a ∉ pre ++ m) (v : ρ) : ((s.relink pre a).put a ⟨v, n⟩).Linked (pre ++ a :: m) := by
  have hput := h.put hnew ⟨v, n⟩
  have hmput : NextChain (s.put a ⟨v, n⟩).next n m := by
    refine hm.congr fun b hb => ?_
    have hne : b ≠ a := fun heq => hnew (heq ▸ mem_append_right _ hb)
    rw [next, put_of_ne hne]
    rfl
  have hchain : NextChain (s.put a ⟨v, n⟩).next a (a :: m) := by
    refine ⟨rfl, h0, ?_⟩
    rw [next, put_self]
    exact hmput
  have hlive : ∀ b ∈ a :: m, b ∈ (s.put a ⟨v, n⟩).allocated := by
    intro b hb
    rcases mem_cons.mp hb with rfl | hb
    · exact ha
    · exact h.live b (mem_append_right _ hb)
  have hnodup : (pre ++ a :: m).Nodup := nodup_middle.mpr (nodup_cons.mpr ⟨hnew, h.nodup⟩)
  have hswap : (s.relink pre a).put a ⟨v, n⟩ = (s.put a ⟨v, n⟩).relink pre a := by
    rw [LinkedHeap.relink, LinkedHeap.relink]
    cases hlast : pre.getLast? with
    | none => rfl
    | some q =>
      have hq : q ≠ a := fun heq => hnew (heq ▸ mem_append_left _ (mem_of_getLast? hlast))
      dsimp only
      rw [val, val, put_of_ne hq, LinkedHeap.put, LinkedHeap.put, LinkedHeap.put, LinkedHeap.put,
        update_comm hq]
  rw [hswap]
  exact hput.relink hchain hnodup hlive

lemma Linked.relink_eq (h : s.Linked (pre ++ a :: m)) (q n : Nat) :
    (if s.head = a then some { s with head := n } else s.setNext (pre.getLast?.getD q) n) = some (s.relink pre n) := by
  rcases eq_nil_or_concat pre with rfl | ⟨k, b, rfl⟩
  · have hhead : s.head = a := h.chain.1
    rw [if_pos hhead]
    rfl
  rw [concat_eq_append] at h ⊢
  have hlast : (k ++ [b]).getLast? = some b := getLast?_append_of_ne_nil _ (cons_ne_nil b [])
  have hhead : s.head ∈ k ++ [b] := by
    have hchain := h.chain
    cases k with
    | nil => exact hchain.1 ▸ mem_cons_self
    | cons c k => exact hchain.1 ▸ mem_cons_self
  have hne : s.head ≠ a := (nodup_append.mp h.nodup).2.2 _ hhead a mem_cons_self
  have hlive : b ∈ s.allocated := h.live b (mem_append_left _ (mem_append_right _ mem_cons_self))
  rw [if_neg hne, hlast, Option.getD_some, setNext, store_eq hlive, LinkedHeap.relink, hlast]

/-! ### Memory that comes and goes -/

/-- Records are mapped from the address `a` on. -/
def map (a : Nat) (vs : List ρ) (s : LinkedHeap ρ) : LinkedHeap ρ where
  cells := fun b => match vs[b - a]? with
    | some v => if a ≤ b then ⟨v, 0⟩ else s.cells b
    | none => s.cells b
  allocated := range' a vs.length ++ s.allocated
  head := s.head

def unmap (as : List Nat) (s : LinkedHeap ρ) : LinkedHeap ρ :=
  { s with allocated := s.allocated.filter fun b => decide (b ∉ as) }

lemma map_cells_of_notMem {vs : List ρ} (h : b ∉ range' a vs.length) : (s.map a vs).cells b = s.cells b := by
  rw [mem_range'_1] at h
  unfold map
  dsimp only
  split
  · next v hv =>
    have hlt : b - a < vs.length := (List.getElem?_eq_some_iff.mp hv).1
    rw [if_neg (by omega)]
  · rfl

lemma map_val_range (a : Nat) (vs : List ρ) (s : LinkedHeap ρ) :
    (range' a vs.length).map (s.map a vs).val = vs := by
  apply ext_getElem
  · rw [length_map, length_range']
  intro i h h'
  rw [getElem_map, getElem_range', Nat.one_mul, val, map]
  dsimp only
  rw [Nat.add_sub_cancel_left, getElem?_eq_getElem h']
  exact congrArg HeapCell.val (if_pos (Nat.le_add_right a i))

lemma Linked.map {vs : List ρ} (h : s.Linked l) (hl : ∀ b ∈ l, b ∉ range' a vs.length) : (s.map a vs).Linked l := by
  refine ⟨h.chain.congr fun b hb => ?_, h.nodup, fun b hb => mem_append_right _ (h.live b hb)⟩
  exact congrArg HeapCell.next (map_cells_of_notMem (hl b hb))

lemma Linked.unmap {as : List Nat} (h : s.Linked l) (hl : ∀ b ∈ l, b ∉ as) : (s.unmap as).Linked l :=
  ⟨h.chain, h.nodup, fun b hb => mem_filter.mpr ⟨h.live b hb, decide_eq_true (hl b hb)⟩⟩

end LinkedHeap

/-! ## Lists with a pointer to their last link -/

structure TailList (ρ : Type u) where
  heap : LinkedHeap ρ
  tail : Option Nat

namespace TailList

variable {ρ : Type u}

def readLink (h : LinkedHeap ρ) : Option Nat → Option Nat
  | none => some h.head
  | some a => (h.load a).map HeapCell.next

def writeLink (h : LinkedHeap ρ) (link : Option Nat) (n : Nat) : Option (LinkedHeap ρ) :=
  match link with
  | none => some { h with head := n }
  | some a => h.setNext a n

def append (a : Nat) (s : TailList ρ) : Option (TailList ρ) := do
  let heap ← s.heap.setNext a 0
  let heap ← writeLink heap s.tail a
  some ⟨heap, some a⟩

/-- The record `a` is taken out, by a loop that sets the pointer at each record it comes past. -/
def removeLoop (a : Nat) : Nat → Option Nat → TailList ρ → Option (TailList ρ)
  | 0, _, _ => none
  | turns + 1, link, s =>
    (readLink s.heap link).bind fun b =>
      if b = 0 then some s
      else if b = a then
        (s.heap.load a).bind fun cell =>
          (writeLink s.heap link cell.next).bind fun heap => removeLoop a turns link { s with heap := heap }
      else removeLoop a turns (some b) { s with tail := some b }

def remove (a : Nat) (s : TailList ρ) : Option (TailList ρ) := removeLoop a (s.heap.turns + 1) none s

structure Holds (s : TailList ρ) (l : List Nat) : Prop where
  linked : s.heap.Linked l
  tail : s.tail = l.getLast?

structure Kept (s s' : TailList ρ) : Prop where
  allocated : s'.heap.allocated = s.heap.allocated
  val : s'.heap.val = s.heap.val

lemma Kept.trans {s s' s'' : TailList ρ} (h : Kept s s') (h' : Kept s' s'') : Kept s s'' :=
  ⟨h'.allocated.trans h.allocated, h'.val.trans h.val⟩

variable {s : TailList ρ} {h : LinkedHeap ρ} {l pre m : List Nat} {a : Nat}

lemma writeLink_eq (hl : ∀ b ∈ pre, b ∈ h.allocated) (n : Nat) :
    writeLink h pre.getLast? n = some (h.relink pre n) := by
  rw [LinkedHeap.relink]
  cases hlast : pre.getLast? with
  | none => rfl
  | some q => exact LinkedHeap.store_eq (hl q (mem_of_getLast? hlast)) _

lemma readLink_eq (hl : h.Linked (pre ++ m)) : readLink h pre.getLast? = some (m.headD 0) := by
  have hhead {n : Nat} (hm : NextChain h.next n m) : n = m.headD 0 := by
    cases m with
    | nil => exact hm
    | cons b m => exact hm.1
  rcases eq_nil_or_concat pre with rfl | ⟨k, q, rfl⟩
  · exact congrArg some (hhead hl.chain)
  rw [concat_eq_append] at hl ⊢
  have hq : q ∈ h.allocated := hl.live q (mem_append_left _ (mem_append_right _ mem_cons_self))
  have hchain := hl.chain
  rw [append_assoc, singleton_append] at hchain
  rw [getLast?_append_of_ne_nil _ (cons_ne_nil q []), getLast?_singleton, readLink,
    LinkedHeap.load_eq hq]
  exact congrArg some (hhead hchain.behind.2)

theorem Holds.append (hs : s.Holds l) (ha : a ∈ s.heap.allocated) (h0 : a ≠ 0) (hnew : a ∉ l) :
    ∃ s', s.append a = some s' ∧ s'.Holds (l ++ [a]) ∧ Kept s s' := by
  have hset : s.heap.setNext a 0 = some (s.heap.put a ⟨s.heap.val a, 0⟩) := LinkedHeap.store_eq ha _
  have hput : (s.heap.put a ⟨s.heap.val a, 0⟩).Linked (l ++ []) :=
    (append_nil l).symm ▸ hs.linked.put hnew ⟨s.heap.val a, 0⟩
  have hend : (s.heap.put a ⟨s.heap.val a, 0⟩).next a = 0 := congrArg HeapCell.next (LinkedHeap.put_self ..)
  have hval : (s.heap.put a ⟨s.heap.val a, 0⟩).val = s.heap.val := by
    funext b
    by_cases hb : b = a
    · rw [hb, LinkedHeap.val, LinkedHeap.put_self]
    rw [LinkedHeap.val, LinkedHeap.put_of_ne hb]
    rfl
  have hallocated : (s.heap.put a ⟨s.heap.val a, 0⟩).allocated = s.heap.allocated := rfl
  generalize s.heap.put a ⟨s.heap.val a, 0⟩ = heap at hset hput hend hval hallocated
  have hnodup : (l ++ [a]).Nodup := nodup_append.mpr
    ⟨hs.linked.nodup, nodup_singleton a, fun b hb c hc heq => hnew (mem_singleton.mp hc ▸ heq ▸ hb)⟩
  have hlink : writeLink heap l.getLast? a = some (heap.relink l a) :=
    writeLink_eq (fun b hb => hallocated ▸ hs.linked.live b hb) a
  refine ⟨⟨heap.relink l a, some a⟩, ?_, ⟨?_, ?_⟩, ⟨?_, ?_⟩⟩
  · rw [TailList.append, hset, hs.tail]
    exact congrArg (Option.bind · _) hlink
  · exact hput.relink ⟨rfl, h0, hend⟩ hnodup fun b hb => mem_singleton.mp hb ▸ hallocated ▸ ha
  · rw [getLast?_append_of_ne_nil _ (cons_ne_nil a []), getLast?_singleton]
  · exact (LinkedHeap.relink_allocated l a heap).trans hallocated
  · exact (LinkedHeap.relink_val l a heap).trans hval

lemma removeLoop_spec {turns : Nat} (hl : s.heap.Linked (pre ++ m)) (ha : a ∉ pre) (hturns : m.length < turns) :
    ∃ s', removeLoop a turns pre.getLast? s = some s' ∧ s'.heap.Linked (pre ++ m.filter (· != a)) ∧ s'.tail =
    (m.filter (· != a)).getLast?.or s.tail ∧ Kept s s' := by
  induction turns generalizing s pre m with
  | zero => exact absurd hturns (Nat.not_lt_zero _)
  | succ turns ih =>
    rw [removeLoop, readLink_eq hl, Option.bind_some]
    cases m with
    | nil => exact ⟨s, if_pos rfl, hl, rfl, rfl, rfl⟩
    | cons b m =>
      have hb0 : b ≠ 0 := hl.ne_zero (mem_append_right _ mem_cons_self)
      rw [headD_cons, if_neg hb0]
      by_cases hba : b = a
      · subst hba
        have hlive : b ∈ s.heap.allocated := hl.live b (mem_append_right _ mem_cons_self)
        have hwrite := writeLink_eq (fun c hc => hl.live c (mem_append_left _ hc)) (s.heap.next b)
        rw [if_pos rfl, LinkedHeap.load_eq hlive, Option.bind_some]
        change ∃ s', (writeLink s.heap pre.getLast? (s.heap.next b)).bind _ = some s' ∧ _
        rw [hwrite, Option.bind_some]
        obtain ⟨s', hs', hlinked, htail, hkept⟩ := ih (s := { s with heap := s.heap.relink pre (s.heap.next b) })
          hl.unlink ha (Nat.lt_of_succ_lt_succ hturns)
        have hout : (b :: m).filter (· != b) = m.filter (· != b) := filter_cons_of_neg (by simp)
        have hrelink : Kept s { s with heap := s.heap.relink pre (s.heap.next b) } :=
          ⟨LinkedHeap.relink_allocated .., LinkedHeap.relink_val ..⟩
        exact ⟨s', hs', hout ▸ hlinked, hout ▸ htail, hrelink.trans hkept⟩
      rw [if_neg hba]
      have hmoved : s.heap.Linked ((pre ++ [b]) ++ m) := by rwa [append_assoc]
      have hpre : a ∉ pre ++ [b] := by
        rw [mem_append, mem_singleton]
        exact fun h => h.elim ha fun heq => hba heq.symm
      obtain ⟨s', hs', hlinked, htail, hkept⟩ := ih (s := { s with tail := some b }) hmoved hpre
        (Nat.lt_of_succ_lt_succ hturns)
      have hin : (b :: m).filter (· != a) = b :: m.filter (· != a) := filter_cons_of_pos (bne_iff_ne.mpr hba)
      rw [getLast?_append_of_ne_nil _ (cons_ne_nil b []), getLast?_singleton] at hs'
      rw [append_assoc] at hlinked
      refine ⟨s', hs', hin ▸ hlinked, ?_, hkept.allocated, hkept.val⟩
      rw [htail, hin, getLast?_cons]
      cases (m.filter (· != a)).getLast? <;> rfl

/-- The pointer is right afterwards if a record is left. -/
theorem Holds.remove (hs : s.Holds l) (hrest : l.filter (· != a) ≠ []) :
    ∃ s', s.remove a = some s' ∧ s'.Holds (l.filter (· != a)) ∧ Kept s s' := by
  have hl : s.heap.Linked ([] ++ l) := hs.linked
  obtain ⟨s', hs', hlinked, hlast, hkept⟩ := removeLoop_spec hl not_mem_nil (Nat.lt_succ_of_lt hs.linked.turns_lt)
  refine ⟨s', hs', ⟨hlinked, ?_⟩, hkept⟩
  rw [hlast, getLast?_eq_some_getLast hrest]
  rfl

end TailList

end Vde
