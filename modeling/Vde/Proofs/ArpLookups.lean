import Vde.Proofs.ArpBindings

/-!
# Lookups in the ARP table

A lookup by address follows the order of the tree. The lookup by hardware address and the list of
neighbours only see the elements on the two outer ways.
-/

namespace Vde

open List

def arpAdd (t : ArpTable) (e : ArpEntry) : ArpTable := vderAddArpEntry (t.alloc e) t.next

def arpTableAfter (es : List ArpEntry) : ArpTable := es.foldl arpAdd arpTableStart

def ArpTable.addresses (t : ArpTable) : List (BitVec 32) := t.root.toList.map (fun p => (t.entries p).ipaddr)

def latestMac (es : List ArpEntry) (addr : BitVec 32) : Option Mac :=
  (es.reverse.find? (fun e => e.ipaddr == addr)).map ArpEntry.macaddr

/-- What the table is for: one entry for each address that was added, found by the address with the
latest hardware address and by the hardware address, and listed as a neighbour. -/
structure ArpLookups (t : ArpTable) (es : List ArpEntry) (addr : BitVec 32) (mac : Mac) (n : Nat) : Prop where
  once : t.addresses.Nodup
  added : ∀ a, a ∈ t.addresses ↔ ∃ e ∈ es, e.ipaddr = a
  latest : t.macOf addr = latestMac es addr
  byMac : (vderArpGetRecordByMacaddr t mac).isSome ↔ ∃ p ∈ t.root.toList, (t.entries p).macaddr = mac
  count : (vderArpGetNeighbors t n).1 = (min n t.root.toList.length : Nat)
  written : (vderArpGetNeighbors t n).2.length = min n t.root.toList.length
  distinct : (vderArpGetNeighbors t n).2.Nodup
  neighbors : ∀ a ∈ (vderArpGetNeighbors t n).2, a ∈ t.addresses

/-- The hardware address is that of no entry or of one on the outer ways, and the vector is not
empty and either full before the outer ways end or there is nothing beside them. -/
structure OuterSuffice (t : ArpTable) (mac : Mac) (n : Nat) : Prop where
  mac : (∃ p ∈ t.root.toList, (t.entries p).macaddr = mac) → ∃ p ∈ t.root.outer, (t.entries p).macaddr = mac
  room : 0 < n
  neighbors : n ≤ t.root.outer.length ∨ t.root.outer.length = t.root.toList.length

section Table

variable {t : ArpTable} {es : List ArpEntry}

lemma ArpTable.Wf.arpAdd (h : t.Wf) (e : ArpEntry) : (arpAdd t e).Wf :=
  (h.alloc e).add (Nat.lt_succ_self _)

lemma ArpTable.Wf.arpAdd_macOf (h : t.Wf) (e : ArpEntry) (addr : BitVec 32) :
    (Vde.arpAdd t e).macOf addr = if addr = e.ipaddr then some e.macaddr else t.macOf addr := by
  rw [Vde.arpAdd, (h.alloc e).add_macOf (Nat.lt_succ_self _), alloc_entries_new, h.alloc_macOf]

lemma arpTableStart_wf : arpTableStart.Wf :=
  { sorted := Pairwise.nil
    allocated := by
      intro p hp
      cases hp }

lemma ArpTable.Wf.foldl_arpAdd (h : t.Wf) (es : List ArpEntry) : (es.foldl Vde.arpAdd t).Wf := by
  induction es generalizing t with
  | nil => exact h
  | cons e es ih => exact ih (h.arpAdd e)

lemma arpTableAfter_wf (es : List ArpEntry) : (arpTableAfter es).Wf := arpTableStart_wf.foldl_arpAdd es

lemma arpTableAfter_macOf (es : List ArpEntry) (addr : BitVec 32) :
    (arpTableAfter es).macOf addr = latestMac es addr := by
  induction es using reverseRecOn with
  | nil => rfl
  | append_singleton es e ih =>
    have hstep : arpTableAfter (es ++ [e]) = Vde.arpAdd (arpTableAfter es) e := by
      rw [arpTableAfter, foldl_append]
      rfl
    rw [hstep, (arpTableAfter_wf es).arpAdd_macOf, ih, latestMac, latestMac, reverse_append,
      reverse_singleton, singleton_append, find?_cons]
    by_cases haddr : e.ipaddr = addr
    · simp [haddr]
    have hne : (e.ipaddr == addr) = false := by simpa using haddr
    rw [hne, if_neg (Ne.symm haddr)]

lemma ArpTable.Wf.addresses_nodup (h : t.Wf) : t.addresses.Nodup := by
  rw [ArpTable.addresses, Nodup, pairwise_map]
  apply h.sorted.imp
  intro p q hlt heq
  rw [ArpTable.key, ArpTable.key, heq] at hlt
  exact lt_irrefl _ hlt

lemma ArpTable.Wf.mem_addresses (h : t.Wf) (a : BitVec 32) : a ∈ t.addresses ↔ (t.macOf a).isSome := by
  rw [ArpTable.addresses, mem_map, ArpTable.macOf, Option.isSome_map, Option.isSome_iff_exists]
  constructor
  · rintro ⟨p, hp, ha⟩
    exact ⟨p, h.get_eq_some.mpr ⟨hp, ha⟩⟩
  rintro ⟨p, hp⟩
  exact ⟨p, h.get_eq_some.mp hp⟩

lemma latestMac_isSome (es : List ArpEntry) (a : BitVec 32) : (latestMac es a).isSome ↔ ∃ e ∈ es, e.ipaddr = a := by
  simp [latestMac, Option.isSome_map]

end Table

section Outer

variable {t : ArpTable} {mac : Mac}

lemma byMacaddr_isSome :
    (vderArpGetRecordByMacaddr t mac).isSome ↔ ∃ p ∈ t.root.outer, (t.entries p).macaddr = mac := by
  simp only [vderArpGetRecordByMacaddr, Option.isSome_or, Bool.or_eq_true, find?_isSome, beq_iff_eq,
    RbTree.mem_outer]
  constructor
  · rintro (⟨p, hp, hmac⟩ | ⟨p, hp, hmac⟩)
    · exact ⟨p, .inl hp, hmac⟩
    · exact ⟨p, .inr hp, hmac⟩
  rintro ⟨p, hp | hp, hmac⟩
  · exact .inl ⟨p, hp, hmac⟩
  · exact .inr ⟨p, hp, hmac⟩

def ArpTable.ipaddrs (t : ArpTable) (ps : List Nat) : List (BitVec 32) := ps.map (fun p => (t.entries p).ipaddr)

lemma neighborsLeft_eq {n : Nat} (root : RbTree Nat) {out : List (BitVec 32)} (h : out.length < n) :
    neighborsLeft t n root out =
    ((out ++ t.ipaddrs root.leftSpine).take n, decide (n ≤ (out ++ t.ipaddrs root.leftSpine).length)) := by
  induction root generalizing out with
  | nil =>
    have hshort : ¬n ≤ out.length := by omega
    simp [neighborsLeft, RbTree.leftSpine, ArpTable.ipaddrs, take_of_length_le (Nat.le_of_lt h), hshort]
  | node color left entry right ihl _ =>
    rw [neighborsLeft]
    have hone : out ++ t.ipaddrs (RbTree.node color left entry right).leftSpine =
        (out ++ [(t.entries entry).ipaddr]) ++ t.ipaddrs left.leftSpine := by
      simp [RbTree.leftSpine, ArpTable.ipaddrs]
    have hlen : (out ++ [(t.entries entry).ipaddr]).length = out.length + 1 := by simp
    rw [hone]
    generalize out ++ [(t.entries entry).ipaddr] = next at hlen ⊢
    by_cases hfull : next.length = n
    · have hle : n ≤ (next ++ t.ipaddrs left.leftSpine).length := by
        rw [length_append]
        omega
      rw [if_pos (by exact_mod_cast hfull), decide_eq_true hle, ← hfull, take_left]
    · rw [if_neg (by exact_mod_cast hfull), ihl (by omega)]

lemma neighborsRight_eq {n : Nat} (root : RbTree Nat) {out : List (BitVec 32)} (h : out.length < n) :
    neighborsRight t n root out = (out ++ t.ipaddrs root.rightSpine).take n := by
  induction root generalizing out with
  | nil => simp [neighborsRight, RbTree.rightSpine, ArpTable.ipaddrs, take_of_length_le (Nat.le_of_lt h)]
  | node color left entry right _ ihr =>
    rw [neighborsRight]
    have hone : out ++ t.ipaddrs (RbTree.node color left entry right).rightSpine =
        (out ++ [(t.entries entry).ipaddr]) ++ t.ipaddrs right.rightSpine := by
      simp [RbTree.rightSpine, ArpTable.ipaddrs]
    have hlen : (out ++ [(t.entries entry).ipaddr]).length = out.length + 1 := by simp
    rw [hone]
    generalize out ++ [(t.entries entry).ipaddr] = next at hlen ⊢
    by_cases hfull : next.length = n
    · rw [if_pos (by exact_mod_cast hfull), ← hfull, take_left]
    · rw [if_neg (by exact_mod_cast hfull), ihr (by omega)]

lemma vderArpGetNeighbors_eq {n : Nat} (h : 0 < n) : vderArpGetNeighbors t n =
    ((((t.ipaddrs t.root.outer).take n).length : Int), (t.ipaddrs t.root.outer).take n) := by
  have hpos : ¬(n : Int) ≤ 0 := by omega
  rw [vderArpGetNeighbors, if_neg hpos, neighborsLeft_eq t.root (by simpa using h)]
  cases hroot : t.root with
  | nil =>
    have hzero : ¬n ≤ 0 := by omega
    simp [RbTree.leftSpine, RbTree.outer, ArpTable.ipaddrs, hzero]
  | node color left entry right =>
    have houter : t.ipaddrs (RbTree.node color left entry right).outer =
        ([] ++ t.ipaddrs (RbTree.node color left entry right).leftSpine) ++ t.ipaddrs right.rightSpine := by
      simp [RbTree.outer, RbTree.leftSpine, ArpTable.ipaddrs]
    rw [houter]
    generalize [] ++ t.ipaddrs (RbTree.node color left entry right).leftSpine = firsts
    by_cases hfull : n ≤ firsts.length
    · rw [decide_eq_true hfull, take_append_of_le_length hfull]
    have hshort : firsts.take n = firsts := take_of_length_le (by omega)
    rw [decide_eq_false hfull, hshort]
    dsimp only
    rw [neighborsRight_eq right (by omega)]

end Outer

section Lookups

variable {t : ArpTable} {n : Nat}

lemma outer_length_le (t : ArpTable) : t.root.outer.length ≤ t.root.toList.length :=
  (RbTree.outer_subperm t.root).length_le

lemma ipaddrs_outer_nodup (h : t.Wf) : (t.ipaddrs t.root.outer).Nodup := by
  obtain ⟨ps, hperm, hsub⟩ := RbTree.outer_subperm t.root
  have hps : (t.ipaddrs ps).Nodup := h.addresses_nodup.sublist (hsub.map _)
  exact (hperm.map _).nodup_iff.mp hps

/-- After any additions the lookups are right exactly when they have to see no more than the outer ways. -/
theorem arp_lookups_iff (es : List ArpEntry) (addr : BitVec 32) (mac : Mac) (n : Nat) :
    ArpLookups (arpTableAfter es) es addr mac n ↔ OuterSuffice (arpTableAfter es) mac n := by
  have hwf := arpTableAfter_wf es
  have hlatest := arpTableAfter_macOf es
  generalize arpTableAfter es = t at hwf hlatest
  have hle := outer_length_le t
  constructor
  · intro h
    have hroom : 0 < n := by
      apply Nat.pos_of_ne_zero
      rintro rfl
      have hcount : (vderArpGetNeighbors t 0).1 = (min 0 t.root.toList.length : Nat) := h.count
      rw [Nat.zero_min] at hcount
      exact absurd hcount (by simp [vderArpGetNeighbors, EINVAL])
    refine ⟨?_, hroom, ?_⟩
    · intro hmac
      exact byMacaddr_isSome.mp (h.byMac.mpr hmac)
    have hwritten := h.written
    rw [vderArpGetNeighbors_eq hroom, length_take, ArpTable.ipaddrs, length_map] at hwritten
    omega
  intro h
  have heq := vderArpGetNeighbors_eq (t := t) h.room
  have hlen : ((t.ipaddrs t.root.outer).take n).length = min n t.root.toList.length := by
    have hcases := h.neighbors
    rw [length_take, ArpTable.ipaddrs, length_map]
    omega
  exact
    { once := hwf.addresses_nodup
      added := by
        intro a
        rw [hwf.mem_addresses, hlatest, latestMac_isSome]
      latest := hlatest addr
      byMac := by
        rw [byMacaddr_isSome]
        refine ⟨?_, h.mac⟩
        rintro ⟨p, hp, hmac⟩
        exact ⟨p, (RbTree.outer_subperm t.root).subset hp, hmac⟩
      count := by rw [heq, hlen]
      written := by rw [heq, hlen]
      distinct := by
        rw [heq]
        exact (ipaddrs_outer_nodup hwf).sublist (take_sublist _ _)
      neighbors := by
        intro a ha
        rw [heq] at ha
        obtain ⟨p, hp, rfl⟩ := mem_map.mp (mem_of_mem_take ha)
        exact mem_map_of_mem ((RbTree.outer_subperm t.root).subset hp) }

end Lookups

def hostEntry (b : UInt8) : ArpEntry :=
  { macaddr := Vector.ofFn (fun _ => b), ipaddr := BitVec.ofNat 32 (b.toNat * 16777216) }

/-- Of four entries the one between the two outer ways is not found by its hardware address. -/
theorem inner_entry_missed : ¬∀ (es : List ArpEntry) (addr : BitVec 32) (mac : Mac) (n : Nat), 0 < n →
    ArpLookups (arpTableAfter es) es addr mac n := by
  intro h
  have hbymac := (h [hostEntry 20, hostEntry 10, hostEntry 30, hostEntry 15] 0 (hostEntry 15).macaddr 1
    (by decide)).byMac
  revert hbymac
  decide

end Vde
