import Mathlib.Data.List.Perm.Basic
import Mathlib.Data.List.Nodup
import Vde.Pstack

/-!
# Reassembly of interleaved frames

The fragments of several frames arrive in any order, with repetitions. For the fragments seen so
far `itemFor` is the item that a frame should have; `nstx_handlepacket` keeps exactly the items of
the frames begun and not finished, and hands a frame on when its last missing fragment comes in.
-/

namespace Vde

open List

structure Message where
  id : Nat
  payloads : List (List UInt8)
  deriving DecidableEq, Repr

/-- An identifier other than zero that fits its twelve bits, and at most sixteen fragments. -/
structure IsMessage (m : Message) : Prop where
  id_pos : 0 < m.id
  id_lt : m.id < 4096
  frags_pos : 0 < m.payloads.length
  frags_le : m.payloads.length ≤ 16

def Message.frame (m : Message) : List UInt8 := m.payloads.flatten

def Message.header (m : Message) (i : Nat) : Nstxhdr :=
  { magic := nstxMagic, seq := i, chan := 0, id := m.id
    flags := if i + 1 = m.payloads.length then nstxLF else 0 }

def Message.fragment (m : Message) (i : Nat) : List UInt8 :=
  (m.header i).toBytes ++ m.payloads.getD i []

/-- A fragment that comes in, with the two clock readings made while it is handled. -/
structure Arrival where
  msg : Message
  seq : Nat
  now : Nat
  check : Nat
  deriving DecidableEq, Repr

/-- The fragments passed to `nstx_handlepacket` one after the other: what each call hands on, and
the list that is left. -/
def reassemble (list : List NstxItem) : List Arrival → List (Option (List UInt8)) × List NstxItem
  | [] => ([], list)
  | a :: as =>
    let r := nstxHandlepacket list (a.msg.fragment a.seq) a.now a.check
    let rs := reassemble r.1 as
    (r.2 :: rs.1, rs.2)

def Arrived (as : List Arrival) (m : Message) (i : Nat) : Prop := ∃ a ∈ as, a.msg = m ∧ a.seq = i

def Complete (as : List Arrival) (m : Message) : Prop := ∀ i < m.payloads.length, Arrived as m i

instance (as : List Arrival) (m : Message) (i : Nat) : Decidable (Arrived as m i) :=
  inferInstanceAs (Decidable (∃ a ∈ as, a.msg = m ∧ a.seq = i))

instance (as : List Arrival) (m : Message) : Decidable (Complete as m) :=
  inferInstanceAs (Decidable (∀ i < m.payloads.length, Arrived as m i))

def chunksFor (m : Message) (p : Nat → Bool) (i n : Nat) : List Clist :=
  ((range' i n).filter p).map (fun j => ⟨j, m.payloads.getD j []⟩)

def itemFor (as : List Arrival) (m : Message) (t : Nat) : NstxItem :=
  { id := m.id, timestamp := t % 4294967296
    frc := if Arrived as m (m.payloads.length - 1) then m.payloads.length else 0
    chunks := chunksFor m (fun j => decide (Arrived as m j)) 0 m.payloads.length }

lemma addDataChunk_eq (chunks : List Clist) (new : Clist) : addDataChunk chunks new = insertBehind new chunks := by
  cases chunks with
  | nil => rfl
  | cons c cs =>
    simp only [addDataChunk, insertBehind]
    by_cases heq : c.seq = new.seq
    · simp [heq]
    by_cases hlt : new.seq < c.seq
    · have hnot : ¬c.seq < new.seq := by omega
      simp [heq, hlt, hnot]
    have hless : c.seq < new.seq := by omega
    simp [heq, hlt, hless]

lemma chunksFor_succ (m : Message) (p : Nat → Bool) (i n : Nat) : chunksFor m p i (n + 1) =
    if p i then ⟨i, m.payloads.getD i []⟩ :: chunksFor m p (i + 1) n else chunksFor m p (i + 1) n := by
  rw [chunksFor, range'_succ, filter_cons]
  by_cases hp : p i = true
  · simp [hp, chunksFor]
  · simp [hp, chunksFor]

variable {m : Message}

lemma chunksFor_seq_le {p : Nat → Bool} {i n : Nat} {c : Clist} (hc : c ∈ chunksFor m p i n) : i ≤ c.seq := by
  simp only [chunksFor, mem_map, mem_filter, mem_range'_1] at hc
  obtain ⟨j, ⟨hj, -⟩, rfl⟩ := hc
  exact hj.1

lemma insertBehind_chunksFor (m : Message) (p : Nat → Bool) (s i n : Nat) (hi : i ≤ s) (hs : s < i + n) :
    insertBehind ⟨s, m.payloads.getD s []⟩ (chunksFor m p i n) =
    chunksFor m (fun j => p j || decide (j = s)) i n := by
  induction n generalizing i with
  | zero => omega
  | succ n ih =>
    rw [chunksFor_succ, chunksFor_succ]
    by_cases his : i = s
    · subst his
      -- the numbers behind are all larger, so the other selections do not change there
      have hrest : chunksFor m (fun j => p j || decide (j = i)) (i + 1) n =
          chunksFor m p (i + 1) n := by
        rw [chunksFor, chunksFor]
        congr 1
        apply filter_congr
        intro j hj
        rw [mem_range'_1] at hj
        have hne : j ≠ i := by omega
        simp [hne]
      by_cases hp : p i = true
      · simp [hp, insertBehind, hrest]
      simp only [hp, Bool.false_eq_true, if_false, decide_true, Bool.or_true, if_true, hrest]
      cases hc : chunksFor m p (i + 1) n with
      | nil => rfl
      | cons c cs =>
        have hle : i + 1 ≤ c.seq := chunksFor_seq_le (by rw [hc]; simp)
        have h1 : ¬c.seq < i := by omega
        have h2 : ¬c.seq = i := by omega
        simp [insertBehind, h1, h2]
    have hrec := ih (i + 1) (by omega) (by omega)
    have hlt : i < s := by omega
    by_cases hp : p i = true
    · simp only [hp, if_true, Bool.true_or, insertBehind, if_pos hlt, hrec]
    · simp only [hp, his, decide_false, Bool.or_false, Bool.false_eq_true, if_false, hrec]

lemma findSequence_chunksFor (m : Message) (p : Nat → Bool) (i n : Nat) :
    findSequence i (chunksFor m p i n) = i + n ↔ ∀ j, i ≤ j → j < i + n → p j = true := by
  induction n generalizing i with
  | zero =>
    simp only [chunksFor, range'_zero, filter_nil, map_nil, findSequence, Nat.add_zero,
      true_iff]
    intro j h1 h2
    omega
  | succ n ih =>
    rw [chunksFor_succ]
    by_cases hp : p i = true
    · have hshift : i + (n + 1) = i + 1 + n := by omega
      rw [if_pos hp, findSequence, if_pos rfl, hshift, ih]
      constructor
      · intro hall j h1 h2
        by_cases hji : j = i
        · rw [hji]
          exact hp
        · exact hall j (by omega) h2
      intro hall j h1 h2
      exact hall j (by omega) h2
    rw [if_neg hp]
    have hstop : findSequence i (chunksFor m p (i + 1) n) = i := by
      cases hc : chunksFor m p (i + 1) n with
      | nil => rfl
      | cons c cs =>
        have hle : i + 1 ≤ c.seq := chunksFor_seq_le (by rw [hc]; simp)
        rw [findSequence, if_neg (by omega)]
    rw [hstop]
    constructor
    · intro h
      omega
    intro hall
    exact absurd (hall i (Nat.le_refl _) (by omega)) hp

lemma chunksFor_all (m : Message) :
    ((chunksFor m (fun _ => true) 0 m.payloads.length).map Clist.data).flatten = m.frame := by
  have hlist : (chunksFor m (fun _ => true) 0 m.payloads.length).map Clist.data = m.payloads := by
    apply ext_getElem
    · simp [chunksFor]
    intro i h1 h2
    simp [chunksFor, getD_eq_getElem?_getD, getElem?_eq_getElem h2]
  rw [hlist]
  rfl

lemma ofBytes_toBytes (h : Nstxhdr) (hmagic : h.magic < 256) (hseq : h.seq < 16) (hchan : h.chan < 16)
    (hid : h.id < 4096) (hflags : h.flags < 16) (payload : List UInt8) :
    Nstxhdr.ofBytes (h.toBytes ++ payload) = h := by
  cases h with
  | mk magic seq chan id flags =>
    simp only [Nstxhdr.ofBytes, Nstxhdr.toBytes, cons_append, nil_append,
      getD_cons_zero, getD_cons_succ, UInt8.toNat_ofNat', Nstxhdr.mk.injEq,
      Nat.reducePow] at hmagic hseq hchan hid hflags ⊢
    omega

lemma fragment_ofBytes (hm : IsMessage m) {i : Nat} (hi : i < m.payloads.length) :
    Nstxhdr.ofBytes (m.fragment i) = m.header i := by
  have hle := hm.frags_le
  have hflags : (m.header i).flags < 16 := by
    simp only [Message.header]
    split <;> decide
  have hmagic : nstxMagic < 256 := by decide
  exact ofBytes_toBytes (m.header i) hmagic (Nat.lt_of_lt_of_le hi hle) (Nat.zero_lt_succ _) hm.id_lt
    hflags _

lemma arrived_append (as : List Arrival) (a : Arrival) (m : Message) (i : Nat) :
    Arrived (as ++ [a]) m i ↔ Arrived as m i ∨ (a.msg = m ∧ a.seq = i) := by
  simp [Arrived, or_and_right, exists_or]

variable {a : Arrival}

lemma arrived_other (as : List Arrival) (h : a.msg ≠ m) (i : Nat) : Arrived (as ++ [a]) m i ↔ Arrived as m i := by
  simp [arrived_append, h]

lemma complete_other (as : List Arrival) (h : a.msg ≠ m) : Complete (as ++ [a]) m ↔ Complete as m := by
  simp [Complete, arrived_other as h]

lemma itemFor_other (as : List Arrival) (h : a.msg ≠ m) (t : Nat) : itemFor (as ++ [a]) m t = itemFor as m t := by
  simp [itemFor, arrived_other as h]

lemma addData_itemFor (as : List Arrival) (a : Arrival) (hm : IsMessage a.msg)
    (hseq : a.seq < a.msg.payloads.length) (t : Nat) :
    addData (itemFor as a.msg t) (a.msg.header a.seq) (a.msg.payloads.getD a.seq []) a.now =
    (itemFor (as ++ [a]) a.msg a.now, decide (Complete (as ++ [a]) a.msg)) := by
  have hpos := hm.frags_pos
  have hchunks : addDataChunk (itemFor as a.msg t).chunks
      ⟨a.seq, a.msg.payloads.getD a.seq []⟩ = (itemFor (as ++ [a]) a.msg a.now).chunks := by
    rw [addDataChunk_eq, itemFor, insertBehind_chunksFor _ _ _ _ _ (Nat.zero_le _) (by omega), itemFor]
    congr 1
    funext j
    have hj : (a.msg = a.msg ∧ a.seq = j) ↔ j = a.seq := by
      rw [eq_self_iff_true, true_and, eq_comm]
    rw [Bool.eq_iff_iff, Bool.or_eq_true, decide_eq_true_iff, decide_eq_true_iff, decide_eq_true_iff,
      arrived_append, hj]
  have hfrc : (if (a.msg.header a.seq).flags &&& nstxLF ≠ 0 then (a.msg.header a.seq).seq + 1
      else (itemFor as a.msg t).frc) = (itemFor (as ++ [a]) a.msg a.now).frc := by
    by_cases hlast : a.seq + 1 = a.msg.payloads.length
    · have harr : Arrived (as ++ [a]) a.msg (a.msg.payloads.length - 1) := by
        rw [arrived_append]
        exact .inr ⟨rfl, by omega⟩
      have hflag : (a.msg.header a.seq).flags = nstxLF := if_pos hlast
      rw [hflag, if_pos (by decide)]
      simp only [itemFor, if_pos harr]
      exact hlast
    have hsame : Arrived (as ++ [a]) a.msg (a.msg.payloads.length - 1) ↔
        Arrived as a.msg (a.msg.payloads.length - 1) := by
      rw [arrived_append]
      constructor
      · rintro (h | ⟨-, h⟩)
        · exact h
        · omega
      · exact .inl
    have hflag : (a.msg.header a.seq).flags = 0 := if_neg hlast
    rw [hflag, if_neg (by decide)]
    simp only [itemFor, hsame]
  have hdone : (decide ((itemFor (as ++ [a]) a.msg a.now).frc ≠ 0) &&
      decide (findSequence 0 (itemFor (as ++ [a]) a.msg a.now).chunks =
        (itemFor (as ++ [a]) a.msg a.now).frc)) = decide (Complete (as ++ [a]) a.msg) := by
    have hseqall := findSequence_chunksFor a.msg
      (fun j => decide (Arrived (as ++ [a]) a.msg j)) 0 a.msg.payloads.length
    rw [Nat.zero_add] at hseqall
    rw [Bool.eq_iff_iff, Bool.and_eq_true, decide_eq_true_iff, decide_eq_true_iff,
      decide_eq_true_iff]
    simp only [itemFor]
    by_cases hlast : Arrived (as ++ [a]) a.msg (a.msg.payloads.length - 1)
    · simp only [if_pos hlast, hseqall, decide_eq_true_eq]
      constructor
      · rintro ⟨-, hall⟩ j hj
        exact hall j (Nat.zero_le _) hj
      intro hall
      exact ⟨by omega, fun j _ hj => hall j hj⟩
    simp only [if_neg hlast]
    constructor
    · rintro ⟨h, -⟩
      exact absurd rfl h
    intro hall
    exact absurd (hall _ (by omega)) hlast
  have hseq' : (a.msg.header a.seq).seq = a.seq := rfl
  rw [addData, hfrc, hseq', hchunks, hdone]
  rfl

variable {as : List Arrival}

lemma itemData_itemFor (h : Complete as m) (t : Nat) : itemData (itemFor as m t) = m.frame := by
  have hall : (itemFor as m t).chunks = chunksFor m (fun _ => true) 0 m.payloads.length := by
    simp only [itemFor, chunksFor]
    congr 1
    apply filter_congr
    intro j hj
    rw [mem_range'_1] at hj
    simpa using h j (by omega)
  rw [itemData, hall, chunksFor_all]

def LastAt (as : List Arrival) (m : Message) (t : Nat) : Prop :=
  ∃ pre a post, as = pre ++ a :: post ∧ a.msg = m ∧ a.now = t ∧ ∀ b ∈ post, b.msg ≠ m

structure Tracks (ms : List Message) (as : List Arrival) (list : List NstxItem) : Prop where
  nodup : (list.map NstxItem.id).Nodup
  items : ∀ it ∈ list, ∃ m ∈ ms, ∃ t, LastAt as m t ∧ ¬Complete as m ∧ it = itemFor as m t
  begun : ∀ m ∈ ms, (∃ a ∈ as, a.msg = m) → ¬Complete as m → ∃ it ∈ list, it.id = m.id

variable {it : NstxItem} {list : List NstxItem}

lemma mem_storeItem {item : NstxItem} (hin : item.id ∈ list.map NstxItem.id) (hnd : (list.map NstxItem.id).Nodup) :
    it ∈ storeItem item list ↔ it = item ∨ (it ∈ list ∧ it.id ≠ item.id) := by
  induction list with
  | nil => simp at hin
  | cons x list ih =>
    rw [map_cons, nodup_cons] at hnd
    rw [storeItem]
    by_cases hx : x.id = item.id
    · rw [if_pos hx, mem_cons, mem_cons]
      constructor
      · rintro (h | h)
        · exact .inl h
        refine .inr ⟨.inr h, fun he => hnd.1 ?_⟩
        rw [hx, ← he]
        exact mem_map_of_mem h
      rintro (h | ⟨rfl | h, hne⟩)
      · exact .inl h
      · exact absurd hx hne
      · exact .inr h
    have hin' : item.id ∈ list.map NstxItem.id := by
      rw [map_cons, mem_cons] at hin
      rcases hin with h | h
      · exact absurd h.symm hx
      · exact h
    rw [if_neg hx, mem_cons, mem_cons, ih hin' hnd.2]
    constructor
    · rintro (rfl | h | ⟨h, hne⟩)
      · exact .inr ⟨.inl rfl, hx⟩
      · exact .inl h
      · exact .inr ⟨.inr h, hne⟩
    rintro (h | ⟨rfl | h, hne⟩)
    · exact .inr (.inl h)
    · exact .inl rfl
    · exact .inr (.inr ⟨h, hne⟩)

lemma storeItem_ids (item : NstxItem) (list : List NstxItem) :
    (storeItem item list).map NstxItem.id = list.map NstxItem.id := by
  induction list with
  | nil => rfl
  | cons x list ih =>
    rw [storeItem]
    by_cases hx : x.id = item.id
    · simp [hx]
    · simp [hx, ih]

lemma mem_unlinkItem {id : Nat} (hnd : (list.map NstxItem.id).Nodup) :
    it ∈ unlinkItem id list ↔ it ∈ list ∧ it.id ≠ id := by
  induction list with
  | nil => simp [unlinkItem]
  | cons x list ih =>
    rw [map_cons, nodup_cons] at hnd
    rw [unlinkItem]
    by_cases hx : x.id = id
    · rw [if_pos hx, mem_cons]
      constructor
      · intro h
        refine ⟨.inr h, fun he => hnd.1 ?_⟩
        rw [hx, ← he]
        exact mem_map_of_mem h
      rintro ⟨rfl | h, hne⟩
      · exact absurd hx hne
      · exact h
    rw [if_neg hx, mem_cons, mem_cons, ih hnd.2]
    constructor
    · rintro (rfl | ⟨h, hne⟩)
      · exact ⟨.inl rfl, hx⟩
      · exact ⟨.inr h, hne⟩
    rintro ⟨rfl | h, hne⟩
    · exact .inl rfl
    · exact .inr ⟨h, hne⟩

lemma unlinkItem_sublist (id : Nat) (list : List NstxItem) : (unlinkItem id list).Sublist list := by
  induction list with
  | nil => exact Sublist.refl _
  | cons x list ih =>
    rw [unlinkItem]
    by_cases hx : x.id = id
    · rw [if_pos hx]
      exact sublist_cons_self x list
    rw [if_neg hx]
    exact ih.cons_cons x

variable {ms : List Message}

lemma message_eq (hids : (ms.map Message.id).Nodup) {m' : Message} (hm : m ∈ ms)
    (hm' : m' ∈ ms) (h : m.id = m'.id) : m = m' :=
  inj_on_of_nodup_map hids hm hm' h

lemma Tracks.item (hids : (ms.map Message.id).Nodup)
    (h : Tracks ms as list) (hm : m ∈ ms) (hopen : ¬Complete as m) : ∃ list' t,
    (if (getItemById list m.id).isNone then allocItem list m.id else list) = list' ∧ getItemById list' m.id =
    some (itemFor as m t) ∧ (list'.map NstxItem.id).Nodup ∧ ∀ it, it.id ≠ m.id → (it ∈ list' ↔ it ∈ list) := by
  cases hfind : getItemById list m.id with
  | none =>
    have hnone : ∀ it ∈ list, it.id ≠ m.id := by
      intro it hit he
      have := find?_eq_none.mp hfind it hit
      simp [he] at this
    -- nothing of this frame has come in yet
    have hnew : ∀ i, ¬Arrived as m i := by
      rintro i ⟨a, ha, rfl, -⟩
      obtain ⟨it, hit, hid⟩ := h.begun a.msg hm ⟨a, ha, rfl⟩ hopen
      exact hnone it hit hid
    have hitem : itemFor as m 0 = { id := m.id, timestamp := 0, frc := 0, chunks := [] } := by
      simp [itemFor, hnew, chunksFor]
    refine ⟨allocItem list m.id, 0, by simp, ?_, ?_, ?_⟩
    · rw [hitem, getItemById, allocItem, find?_cons_of_pos]
      simp
    · rw [allocItem, map_cons, nodup_cons]
      refine ⟨?_, h.nodup⟩
      rw [mem_map]
      rintro ⟨it, hit, hid⟩
      exact hnone it hit hid
    intro it hne
    rw [allocItem, mem_cons]
    constructor
    · rintro (rfl | hit)
      · exact absurd rfl hne
      · exact hit
    · exact .inr
  | some it =>
    have hmem := mem_of_find?_eq_some hfind
    have hid : it.id = m.id := by simpa using find?_some hfind
    obtain ⟨m', hm', t, -, -, rfl⟩ := h.items it hmem
    have heq : m' = m := message_eq hids hm' hm hid
    subst heq
    exact ⟨list, t, by simp, hfind, h.nodup, fun _ _ => Iff.rfl⟩

variable {t : Nat}

lemma lastAt_append (h : LastAt as m t) (hne : a.msg ≠ m) : LastAt (as ++ [a]) m t := by
  obtain ⟨pre, b, post, rfl, hmsg, hnow, hpost⟩ := h
  refine ⟨pre, b, post ++ [a], by simp, hmsg, hnow, ?_⟩
  intro c hc
  rw [mem_append, mem_singleton] at hc
  rcases hc with hc | rfl
  · exact hpost c hc
  · exact hne

lemma lastAt_self (as : List Arrival) (a : Arrival) : LastAt (as ++ [a]) a.msg a.now :=
  ⟨as, a, [], rfl, rfl, rfl, by simp⟩

def Survives (t check : Nat) : Prop :=
  ¬(t % 4294967296 + nstxTimeout) % 4294967296 < check % 4294967296

lemma handlepacket_call {list' : List NstxItem}
    (hm : IsMessage a.msg) (hseq : a.seq < a.msg.payloads.length)
    (hlist : (if (getItemById list a.msg.id).isNone then allocItem list a.msg.id else list) = list')
    (hget : getItemById list' a.msg.id = some (itemFor as a.msg t)) :
    nstxHandlepacket list (a.msg.fragment a.seq) a.now a.check =
      if Complete (as ++ [a]) a.msg then
        (checkTimeouts (unlinkItem a.msg.id list') a.check, some a.msg.frame)
      else
        (checkTimeouts (storeItem (itemFor (as ++ [a]) a.msg a.now) list') a.check, none) := by
  have hlen : ¬(a.msg.fragment a.seq).length < 4 := by simp [Message.fragment, Nstxhdr.toBytes]
  have hpayload : (a.msg.fragment a.seq).drop 4 = a.msg.payloads.getD a.seq [] := by
    simp [Message.fragment, Nstxhdr.toBytes]
  have hid : (a.msg.header a.seq).id = a.msg.id := rfl
  have hid0 : ¬a.msg.id = 0 := Nat.ne_of_gt hm.id_pos
  rw [nstxHandlepacket, if_neg hlen, fragment_ofBytes hm hseq]
  dsimp only
  rw [hid, if_neg hid0, hlist, hget, hpayload]
  dsimp only
  rw [addData_itemFor as a hm hseq t]
  by_cases hdone : Complete (as ++ [a]) a.msg
  · simp [hdone, itemData_itemFor hdone]
  · simp [hdone]

lemma Tracks.other (h : Tracks ms as list) (a : Arrival) (hit : it ∈ list) (hne : it.id ≠ a.msg.id) : ∃ m ∈ ms, ∃ t,
    LastAt (as ++ [a]) m t ∧ ¬Complete (as ++ [a]) m ∧ it = itemFor (as ++ [a]) m t := by
  obtain ⟨m, hm, t, hlast, hnot, rfl⟩ := h.items it hit
  have hmsg : a.msg ≠ m := by
    rintro rfl
    exact hne rfl
  refine ⟨m, hm, t, lastAt_append hlast hmsg, ?_, (itemFor_other as hmsg t).symm⟩
  rwa [complete_other as hmsg]

lemma Tracks.begun_other (hids : (ms.map Message.id).Nodup) (h : Tracks ms as list) (ha : a.msg ∈ ms) (hm : m ∈ ms)
    (hmsg : a.msg ≠ m) (hsome : ∃ b ∈ as ++ [a], b.msg = m) (hnot : ¬Complete (as ++ [a]) m) : ∃ it ∈ list, it.id =
    m.id ∧ it.id ≠ a.msg.id := by
  obtain ⟨b, hb, rfl⟩ := hsome
  rw [mem_append, mem_singleton] at hb
  rcases hb with hb | rfl
  · rw [complete_other as hmsg] at hnot
    obtain ⟨it, hit, hitid⟩ := h.begun b.msg hm ⟨b, hb, rfl⟩ hnot
    refine ⟨it, hit, hitid, ?_⟩
    rw [hitid]
    exact fun he => hmsg (message_eq hids hm ha he).symm
  · exact absurd rfl hmsg

lemma handlepacket_step (hids : (ms.map Message.id).Nodup) (hms : ∀ m ∈ ms, IsMessage m) (h : Tracks ms as list)
    (a : Arrival) (ha : a.msg ∈ ms) (hseq : a.seq < a.msg.payloads.length) (hopen : ¬Complete as a.msg)
    (hkeep : ∀ m ∈ ms, ∀ t, LastAt (as ++ [a]) m t → ¬Complete (as ++ [a]) m → Survives t a.check) :
    (nstxHandlepacket list (a.msg.fragment a.seq) a.now a.check).2 =
    (if Complete (as ++ [a]) a.msg then some a.msg.frame else none) ∧
    Tracks ms (as ++ [a]) (nstxHandlepacket list (a.msg.fragment a.seq) a.now a.check).1 := by
  obtain ⟨list', t, hlist, hget, hnd, hrest⟩ := h.item hids ha hopen
  have hothers : ∀ it ∈ list', it.id ≠ a.msg.id →
      ∃ m ∈ ms, ∃ t, LastAt (as ++ [a]) m t ∧ ¬Complete (as ++ [a]) m ∧
        it = itemFor (as ++ [a]) m t :=
    fun it hit hne => h.other a ((hrest it hne).mp hit) hne
  have hstay : ∀ it m t, m ∈ ms → LastAt (as ++ [a]) m t → ¬Complete (as ++ [a]) m →
      it = itemFor (as ++ [a]) m t →
      (!decide ((it.timestamp + nstxTimeout) % 4294967296 < a.check % 4294967296)) = true := by
    intro it m t' hm' hlast hnot hit
    have hsurv := hkeep m hm' t' hlast hnot
    rw [hit]
    simpa [itemFor, Survives] using hsurv
  rw [handlepacket_call (hms a.msg ha) hseq hlist hget]
  by_cases hdone : Complete (as ++ [a]) a.msg
  · rw [if_pos hdone, if_pos hdone]
    refine ⟨rfl, ?_⟩
    constructor
    · exact hnd.sublist (((filter_sublist).trans (unlinkItem_sublist _ _)).map _)
    · intro it hit
      rw [checkTimeouts, mem_filter, mem_unlinkItem hnd] at hit
      exact hothers it hit.1.1 hit.1.2
    intro m hm' hsome hnot
    have hmsg : a.msg ≠ m := by
      rintro rfl
      exact hnot hdone
    obtain ⟨it, hit, hitid, hne⟩ := h.begun_other hids ha hm' hmsg hsome hnot
    have hit' := (hrest it hne).mpr hit
    obtain ⟨m₂, hm₂, t₂, hlast, hnot₂, hitem⟩ := hothers it hit' hne
    refine ⟨it, ?_, hitid⟩
    rw [checkTimeouts, mem_filter, mem_unlinkItem hnd]
    exact ⟨⟨hit', hne⟩, hstay it m₂ t₂ hm₂ hlast hnot₂ hitem⟩
  rw [if_neg hdone, if_neg hdone]
  have hin : (itemFor (as ++ [a]) a.msg a.now).id ∈ list'.map NstxItem.id :=
    mem_map.mpr ⟨_, mem_of_find?_eq_some hget, rfl⟩
  refine ⟨rfl, ?_⟩
  constructor
  · have hids' := storeItem_ids (itemFor (as ++ [a]) a.msg a.now) list'
    rw [← hids'] at hnd
    exact hnd.sublist ((filter_sublist).map _)
  · intro it hit
    rw [checkTimeouts, mem_filter, mem_storeItem hin hnd] at hit
    rcases hit.1 with rfl | ⟨hit', hne⟩
    · exact ⟨a.msg, ha, a.now, lastAt_self as a, hdone, rfl⟩
    · exact hothers it hit' hne
  intro m hm' hsome hnot
  by_cases hmsg : a.msg = m
  · subst hmsg
    refine ⟨itemFor (as ++ [a]) a.msg a.now, ?_, rfl⟩
    rw [checkTimeouts, mem_filter, mem_storeItem hin hnd]
    exact ⟨.inl rfl, hstay _ a.msg a.now ha (lastAt_self as a) hdone rfl⟩
  obtain ⟨it, hit, hitid, hne⟩ := h.begun_other hids ha hm' hmsg hsome hnot
  have hit' := (hrest it hne).mpr hit
  obtain ⟨m₂, hm₂, t₂, hlast, hnot₂, hitem⟩ := hothers it hit' hne
  refine ⟨it, ?_, hitid⟩
  rw [checkTimeouts, mem_filter, mem_storeItem hin hnd]
  exact ⟨.inr ⟨hit', hne⟩, hstay it m₂ t₂ hm₂ hlast hnot₂ hitem⟩

def expectedCalls (pre : List Arrival) : List Arrival → List (Option (List UInt8))
  | [] => []
  | a :: as =>
    (if Complete (pre ++ [a]) a.msg then some a.msg.frame else none) :: expectedCalls (pre ++ [a]) as

def finished (pre : List Arrival) : List Arrival → List Message
  | [] => []
  | a :: as =>
    if Complete (pre ++ [a]) a.msg then a.msg :: finished (pre ++ [a]) as
    else finished (pre ++ [a]) as

/-- The arrivals of a set of frames: every fragment comes in at least once and none after its
frame is complete; the clock does not go back and no two successive fragments of a frame are more
than `NSTX_TIMEOUT` apart. -/
structure Schedule (ms : List Message) (as : List Arrival) : Prop where
  ids : (ms.map Message.id).Nodup
  msgs : ∀ m ∈ ms, IsMessage m
  known : ∀ a ∈ as, a.msg ∈ ms ∧ a.seq < a.msg.payloads.length
  all : ∀ m ∈ ms, Complete as m
  early : ∀ j, (hj : j < as.length) → ¬Complete (as.take j) as[j].msg
  clock : ∀ a ∈ as, a.now ≤ a.check
  monotone : as.Pairwise (fun a b => a.check ≤ b.now)
  gap : ∀ j, (hj : j < as.length) → ∀ i, (hi : i < j) → as[i].msg = as[j].msg →
    (∀ k, (hk : k < j) → i < k → as[k].msg ≠ as[i].msg) → as[j].now ≤ as[i].now + nstxTimeout

/-- No fragment that leaves its frame open comes in during the last `NSTX_TIMEOUT` seconds before
the `unsigned int` clock starts again from zero. -/
def InEpoch (as : List Arrival) : Prop :=
  ∀ j, (hj : j < as.length) → ¬Complete (as.take (j + 1)) as[j].msg →
    as[j].now % 4294967296 + nstxTimeout < 4294967296

lemma complete_mono {bs : List Arrival} (h : as ⊆ bs) (hc : Complete as m) : Complete bs m := by
  intro i hi
  obtain ⟨a, ha, hmsg, hseq⟩ := hc i hi
  exact ⟨a, h ha, hmsg, hseq⟩

variable {pre post : List Arrival}

lemma Schedule.early_split (h : Schedule ms as) (has : as = pre ++ a :: post) : ¬Complete pre a.msg := by
  subst has
  have hj := h.early pre.length (by simp)
  simpa using hj

lemma survives_of_le {check : Nat} (hle : t ≤ check) (hgap : check ≤ t + nstxTimeout)
    (hepoch : t % 4294967296 + nstxTimeout < 4294967296) : Survives t check := by
  rw [Survives]
  have htimeout : nstxTimeout = 30 := rfl
  omega

lemma Schedule.gap_split {mid : List Arrival} {b c : Arrival}
    (h : Schedule ms as) (has : as = pre ++ b :: (mid ++ c :: post)) (hmsg : b.msg = c.msg)
    (hmid : ∀ d ∈ mid, d.msg ≠ b.msg) : c.now ≤ b.now + nstxTimeout := by
  subst has
  have hj := h.gap (pre.length + (mid.length + 1)) (by simp) pre.length (by omega)
  have hb : (pre ++ b :: (mid ++ c :: post))[pre.length] = b := by simp
  have hc : (pre ++ b :: (mid ++ c :: post))[pre.length + (mid.length + 1)] = c := by simp
  rw [hb, hc] at hj
  refine hj hmsg ?_
  intro k hk hlt
  obtain ⟨n, rfl⟩ : ∃ n, k = pre.length + (n + 1) := ⟨k - pre.length - 1, by omega⟩
  have hn : n < mid.length := by omega
  have hlen : pre.length + (n + 1) < (pre ++ b :: (mid ++ c :: post)).length := by
    simp
    omega
  have hd : (pre ++ b :: (mid ++ c :: post))[pre.length + (n + 1)] = mid[n] := by
    simp [getElem_append_left hn]
  rw [hd, hb]
  exact hmid _ (getElem_mem hn)

lemma InEpoch.split (h : InEpoch as) (has : as = pre ++ a :: post)
    (hopen : ¬Complete (pre ++ [a]) a.msg) : a.now % 4294967296 + nstxTimeout < 4294967296 := by
  subst has
  have hj := h pre.length (by simp)
  have ha : (pre ++ a :: post)[pre.length] = a := by simp
  have htake : (pre ++ a :: post).take (pre.length + 1) = pre ++ [a] := by
    rw [take_append, take_of_length_le (by omega)]
    simp
  rw [ha, htake] at hj
  exact hj hopen

lemma Schedule.survives (h : Schedule ms as) (hepoch : InEpoch as) (has : as = pre ++ a :: post) (hm : m ∈ ms)
    (hlast : LastAt (pre ++ [a]) m t) (hopen : ¬Complete (pre ++ [a]) m) : Survives t a.check := by
  obtain ⟨pre₁, b, mid, hsplit, rfl, rfl, hmid⟩ := hlast
  -- the next fragment of the frame
  obtain ⟨skip, c, post', rfl, hskip, hc⟩ : ∃ skip c post', post = skip ++ c :: post' ∧
      (∀ d ∈ skip, d.msg ≠ b.msg) ∧ c.msg = b.msg := by
    have hex : ∃ c ∈ post, c.msg = b.msg := by
      by_contra hnone
      simp only [not_exists, not_and] at hnone
      apply hopen
      intro i hi
      obtain ⟨d, hd, hmsg, hseq⟩ := h.all b.msg hm i hi
      rw [has, mem_append, mem_cons] at hd
      refine ⟨d, ?_, hmsg, hseq⟩
      rcases hd with hd | rfl | hd
      · simp [hd]
      · simp
      · exact absurd hmsg (hnone d hd)
    obtain ⟨c₀, hc₀, hmsg₀⟩ := hex
    obtain ⟨c, skip, post', hnone, hcmsg, hpost, -⟩ :=
      exists_of_eraseP (p := fun d => decide (d.msg = b.msg)) hc₀ (by simpa using hmsg₀)
    exact ⟨skip, c, post', hpost, fun d hd => by simpa using hnone d hd, by simpa using hcmsg⟩
  have has' : as = pre₁ ++ b :: (mid ++ skip ++ c :: post') := by
    rw [has, show pre ++ a :: (skip ++ c :: post') = pre ++ [a] ++ (skip ++ c :: post') by simp, hsplit]
    simp
  have hgap : c.now ≤ b.now + nstxTimeout := by
    refine h.gap_split has' hc.symm ?_
    intro d hd
    rw [mem_append] at hd
    rcases hd with hd | hd
    · exact hmid d hd
    · exact hskip d hd
  have hnext : a.check ≤ c.now := by
    have hsub : [a, c].Sublist as := by
      rw [has]
      refine Sublist.trans ?_ (sublist_append_right _ _)
      exact (singleton_sublist.mpr (by simp)).cons_cons a
    have hpair := h.monotone.sublist hsub
    simpa using hpair
  have hbefore : b.now ≤ a.check := by
    have hbmem : b ∈ pre ++ [a] := by
      rw [hsplit]
      simp
    rw [mem_append, mem_singleton] at hbmem
    rcases hbmem with hb | rfl
    · have hsub : [b, a].Sublist as := by
        rw [has]
        exact (singleton_sublist.mpr hb).append (singleton_sublist.mpr (by simp))
      have hpair := h.monotone.sublist hsub
      have hchk := h.clock b (by rw [has]; simp [hb])
      have hchk' := h.clock a (by rw [has]; simp)
      have hle : b.check ≤ a.now := by simpa using hpair
      omega
    · exact h.clock b (by rw [has]; simp)
  refine survives_of_le hbefore (by omega) (hepoch.split has' ?_)
  intro hcomp
  apply hopen
  refine complete_mono ?_ hcomp
  intro d hd
  rw [hsplit]
  rw [mem_append, mem_singleton] at hd
  rcases hd with hd | rfl
  · simp [hd]
  · simp

lemma reassemble_tracks (h : Schedule ms as) (hepoch : InEpoch as)
    (suf pre : List Arrival) (list : List NstxItem) (has : as = pre ++ suf) (htracks : Tracks ms pre list) :
    (reassemble list suf).1 = expectedCalls pre suf ∧ Tracks ms as (reassemble list suf).2 := by
  induction suf generalizing pre list with
  | nil =>
    rw [append_nil] at has
    rw [has]
    exact ⟨rfl, htracks⟩
  | cons a suf ih =>
    obtain ⟨hmem, hseq⟩ := h.known a (by rw [has]; simp)
    obtain ⟨hout, hnext⟩ := handlepacket_step h.ids h.msgs htracks a hmem hseq (h.early_split has)
      (fun m hm t hlast hopen => h.survives hepoch has hm hlast hopen)
    obtain ⟨hrest, hend⟩ := ih (pre ++ [a]) _ (by rw [has]; simp) hnext
    refine ⟨?_, hend⟩
    rw [reassemble, expectedCalls]
    simp only [hout, hrest]

lemma mem_finished (hearly : ∀ pre a post, as = pre ++ a :: post → ¬Complete pre a.msg) (m : Message)
    (suf pre : List Arrival) (has : as = pre ++ suf) : m ∈ finished pre suf ↔ ¬Complete pre m ∧ Complete as m := by
  induction suf generalizing pre with
  | nil =>
    rw [append_nil] at has
    simp [finished, has]
  | cons a suf ih =>
    have hrec := ih (pre ++ [a]) (by rw [has]; simp)
    have hsub : pre ++ [a] ⊆ as := by
      rw [has]
      intro d hd
      rw [mem_append, mem_singleton] at hd
      rcases hd with hd | rfl
      · simp [hd]
      · simp
    rw [finished]
    by_cases hm : a.msg = m
    · subst hm
      have hopen := hearly pre a suf has
      by_cases hdone : Complete (pre ++ [a]) a.msg
      · simp [hdone, hopen, complete_mono hsub hdone]
      · simp [hdone, hopen, hrec]
    rw [complete_other pre hm] at hrec
    by_cases hdone : Complete (pre ++ [a]) a.msg
    · rw [if_pos hdone, mem_cons, hrec]
      constructor
      · rintro (rfl | h)
        · exact absurd rfl hm
        · exact h
      · exact .inr
    · rw [if_neg hdone, hrec]

lemma finished_nodup (hearly : ∀ pre a post, as = pre ++ a :: post → ¬Complete pre a.msg)
    (suf pre : List Arrival) (has : as = pre ++ suf) : (finished pre suf).Nodup := by
  induction suf generalizing pre with
  | nil => exact nodup_nil
  | cons a suf ih =>
    have has' : as = pre ++ [a] ++ suf := by rw [has]; simp
    rw [finished]
    by_cases hdone : Complete (pre ++ [a]) a.msg
    · rw [if_pos hdone, nodup_cons, mem_finished hearly a.msg suf _ has']
      exact ⟨fun hnot => hnot.1 hdone, ih _ has'⟩
    rw [if_neg hdone]
    exact ih _ has'

lemma expectedCalls_finished (suf pre : List Arrival) :
    (expectedCalls pre suf).filterMap id = (finished pre suf).map Message.frame := by
  induction suf generalizing pre with
  | nil => rfl
  | cons a suf ih =>
    rw [expectedCalls, finished]
    by_cases hdone : Complete (pre ++ [a]) a.msg
    · have hsome : id (some a.msg.frame) = some a.msg.frame := rfl
      rw [if_pos hdone, if_pos hdone, filterMap_cons_some hsome, ih, map_cons]
    have hnone : id (none : Option (List UInt8)) = none := rfl
    rw [if_neg hdone, if_neg hdone, filterMap_cons_none hnone, ih]

lemma tracks_nil (ms : List Message) : Tracks ms [] [] :=
  { nodup := nodup_nil
    items := fun it hit => absurd hit (by simp)
    begun := fun m _ hsome => by simp at hsome }

/-- Every frame is handed on once, by the call for its last missing fragment, with its fragments in
order, and nothing is left over. -/
theorem reassembly_interleaved (ms : List Message) (as : List Arrival) (h : Schedule ms as) (hepoch : InEpoch as) :
    (reassemble [] as).1 = expectedCalls [] as ∧ ((reassemble [] as).1.filterMap id).Perm (ms.map Message.frame) ∧
    (reassemble [] as).2 = [] := by
  obtain ⟨hcalls, htracks⟩ := reassemble_tracks h hepoch as [] [] rfl (tracks_nil ms)
  have hearly : ∀ pre a post, as = pre ++ a :: post → ¬Complete pre a.msg :=
    fun pre a post has => h.early_split has
  refine ⟨hcalls, ?_, ?_⟩
  · rw [hcalls, expectedCalls_finished]
    apply Perm.map
    rw [perm_ext_iff_of_nodup (finished_nodup hearly as [] rfl) (Nodup.of_map _ h.ids)]
    intro m
    rw [mem_finished hearly m as [] rfl]
    constructor
    · rintro ⟨hopen, hdone⟩
      -- a frame that was open at the start has a fragment, so it has arrived
      have hpos : 0 < m.payloads.length := by
        by_contra hz
        exact hopen (fun i hi => by omega)
      obtain ⟨a, ha, rfl, -⟩ := hdone 0 hpos
      exact (h.known a ha).1
    intro hm
    refine ⟨?_, h.all m hm⟩
    intro hnone
    obtain ⟨a, ha, -⟩ := hnone 0 (h.msgs m hm).frags_pos
    simp at ha
  apply eq_nil_iff_forall_not_mem.mpr
  intro it hit
  obtain ⟨m, hm, t, -, hopen, -⟩ := htracks.items it hit
  exact hopen (h.all m hm)

def twoFrames : List Message := [⟨1, [[1], [2]]⟩, ⟨2, [[3], [4, 5]]⟩]

/-- Their fragments, the last of the first frame coming first and twice. -/
def twoFramesArrive : List Arrival :=
  [⟨⟨1, [[1], [2]]⟩, 1, 10, 10⟩, ⟨⟨2, [[3], [4, 5]]⟩, 0, 11, 11⟩, ⟨⟨1, [[1], [2]]⟩, 1, 12, 12⟩,
    ⟨⟨1, [[1], [2]]⟩, 0, 13, 13⟩, ⟨⟨2, [[3], [4, 5]]⟩, 1, 14, 14⟩]

theorem reassembly_two_frames : (reassemble [] twoFramesArrive).1 = expectedCalls [] twoFramesArrive ∧
    ((reassemble [] twoFramesArrive).1.filterMap id).Perm (twoFrames.map Message.frame) ∧
    (reassemble [] twoFramesArrive).2 = [] :=
  reassembly_interleaved twoFrames twoFramesArrive
    { ids := by decide
      msgs := by
        intro m hm
        simp only [twoFrames, mem_cons, not_mem_nil, or_false] at hm
        rcases hm with rfl | rfl
        · exact ⟨by decide, by decide, by decide, by decide⟩
        · exact ⟨by decide, by decide, by decide, by decide⟩
      known := by decide
      all := by decide
      early := by decide
      clock := by decide
      monotone := by decide
      gap := by decide }
    (by unfold InEpoch; decide)

/-- One frame in two fragments, six and five seconds before the clock starts again from zero. -/
def lateFrame : Message := ⟨1, [[1], [2]]⟩

def lateFrameArrives : List Arrival :=
  [⟨lateFrame, 0, 4294967290, 4294967290⟩, ⟨lateFrame, 1, 4294967291, 4294967291⟩]

/-- The item is timed out as soon as its first fragment is in, and the frame is lost. -/
theorem reassembly_clock_wrap : Schedule [lateFrame] lateFrameArrives ∧
    (reassemble [] lateFrameArrives).1 ≠ expectedCalls [] lateFrameArrives ∧
    ¬((reassemble [] lateFrameArrives).1.filterMap id).Perm ([lateFrame].map Message.frame) := by
  refine ⟨?_, by decide +kernel, by decide +kernel⟩
  exact
    { ids := by decide
      msgs := by
        intro m hm
        rw [mem_singleton] at hm
        subst hm
        exact ⟨by decide, by decide, by decide, by decide⟩
      known := by decide
      all := by decide
      early := by decide
      clock := by decide
      monotone := by decide
      gap := by decide }

end Vde
