import Vde.Arp

/-!
# Bindings of the ARP table

For its users the tree of ARP entries is a function from addresses to hardware addresses: an
addition binds its address and leaves all others as they were.
-/

namespace Vde

structure ArpTable.Wf (t : ArpTable) : Prop where
  sorted : KeySorted t.key t.root.toList
  allocated : ∀ p ∈ t.root.toList, p < t.next

def ArpTable.macOf (t : ArpTable) (addr : BitVec 32) : Option Mac :=
  (vderGetArpEntry t addr).map (fun p => (t.entries p).macaddr)

section Lookup

variable {t : ArpTable} {p : Nat} {addr : BitVec 32}

lemma ArpTable.key_eq_iff : t.key p = (ntohl addr).toNat ↔ (t.entries p).ipaddr = addr := by
  rw [ArpTable.key, BitVec.toNat_inj, ntohl_inj]

lemma ArpTable.Wf.get_eq_some (h : t.Wf) :
    vderGetArpEntry t addr = some p ↔ p ∈ t.root.toList ∧ (t.entries p).ipaddr = addr := by
  rw [vderGetArpEntry, rbSearch_eq_some h.sorted, ArpTable.key_eq_iff]

lemma ArpTable.Wf.macOf_mem (h : t.Wf) (hp : p ∈ t.root.toList) :
    t.macOf (t.entries p).ipaddr = some (t.entries p).macaddr := by
  rw [ArpTable.macOf, h.get_eq_some.mpr ⟨hp, rfl⟩]
  rfl

end Lookup

section Alloc

variable {t : ArpTable} {e : ArpEntry}

lemma alloc_entries_old {p : Nat} (h : p < t.next) : (t.alloc e).entries p = t.entries p := by
  simp [ArpTable.alloc, Nat.ne_of_lt h]

lemma alloc_entries_new : (t.alloc e).entries t.next = e := by
  simp [ArpTable.alloc]

lemma alloc_key_old {p : Nat} (h : p < t.next) : (t.alloc e).key p = t.key p := by
  rw [ArpTable.key, alloc_entries_old h, ArpTable.key]

lemma ArpTable.Wf.alloc (h : t.Wf) (e : ArpEntry) : (t.alloc e).Wf := by
  refine ⟨?_, ?_⟩
  · apply List.Pairwise.imp_of_mem _ h.sorted
    intro p q hp hq hlt
    rwa [alloc_key_old (h.allocated p hp), alloc_key_old (h.allocated q hq)]
  intro p hp
  exact Nat.lt_succ_of_lt (h.allocated p hp)

lemma ArpTable.Wf.alloc_macOf (h : t.Wf) (e : ArpEntry) (addr : BitVec 32) :
    (t.alloc e).macOf addr = t.macOf addr := by
  have hiff (p : Nat) : vderGetArpEntry (t.alloc e) addr = some p ↔ vderGetArpEntry t addr = some p := by
    rw [h.get_eq_some, (h.alloc e).get_eq_some]
    constructor
    · rintro ⟨hp, haddr⟩
      rw [alloc_entries_old (h.allocated p hp)] at haddr
      exact ⟨hp, haddr⟩
    rintro ⟨hp, haddr⟩
    rw [← alloc_entries_old (e := e) (h.allocated p hp)] at haddr
    exact ⟨hp, haddr⟩
  have hget : vderGetArpEntry (t.alloc e) addr = vderGetArpEntry t addr := Option.ext hiff
  rw [ArpTable.macOf, ArpTable.macOf, hget]
  cases hp : vderGetArpEntry t addr with
  | none => rfl
  | some p => rw [Option.map_some, Option.map_some, alloc_entries_old (h.allocated p (h.get_eq_some.mp hp).1)]

end Alloc

section Add

variable {t : ArpTable} {p : Nat}

lemma setMac_ipaddr (t : ArpTable) (q : Nat) (mac : Mac) (p : Nat) :
    ((t.setMac q mac).entries p).ipaddr = (t.entries p).ipaddr := by
  simp only [ArpTable.setMac]
  split
  · rename_i h
    rw [h]
  · rfl

lemma setMac_key (t : ArpTable) (q : Nat) (mac : Mac) : (t.setMac q mac).key = t.key := by
  funext p
  rw [ArpTable.key, setMac_ipaddr, ArpTable.key]

lemma setMac_get (t : ArpTable) (q : Nat) (mac : Mac) (addr : BitVec 32) :
    vderGetArpEntry (t.setMac q mac) addr = vderGetArpEntry t addr := by
  rw [vderGetArpEntry, setMac_key, vderGetArpEntry]
  rfl

lemma vderAddArpEntry_ipaddr (t : ArpTable) (p q : Nat) :
    ((vderAddArpEntry t p).entries q).ipaddr = (t.entries q).ipaddr := by
  rw [vderAddArpEntry]
  split
  · exact setMac_ipaddr t _ _ q
  · rfl

lemma vderAddArpEntry_next (t : ArpTable) (p : Nat) : (vderAddArpEntry t p).next = t.next := by
  rw [vderAddArpEntry]
  split
  · rfl
  · rfl

lemma ArpTable.Wf.add (h : t.Wf) (hp : p < t.next) : (vderAddArpEntry t p).Wf := by
  rw [vderAddArpEntry]
  split
  · refine ⟨?_, h.allocated⟩
    rw [setMac_key]
    exact h.sorted
  rename_i path hpath
  obtain ⟨hsorted, hmem⟩ := rbInsertColor_sorted h.sorted hpath
  refine ⟨hsorted, ?_⟩
  intro q hq
  rcases (hmem q).mp hq with rfl | hq
  · exact hp
  · exact h.allocated q hq

lemma ArpTable.Wf.add_macOf (h : t.Wf) (hp : p < t.next) (addr : BitVec 32) : (vderAddArpEntry t p).macOf addr =
    if addr = (t.entries p).ipaddr then some (t.entries p).macaddr else t.macOf addr := by
  have hwf := h.add hp
  rw [vderAddArpEntry] at hwf ⊢
  split at hwf
  · -- the address is there: its entry gets the hardware address
    rename_i q hq
    rw [rbDescend_found, rbSearch_eq_some h.sorted] at hq
    obtain ⟨hqmem, hqkey⟩ := hq
    rw [ArpTable.key, ArpTable.key, BitVec.toNat_inj, ntohl_inj] at hqkey
    rw [ArpTable.macOf, setMac_get]
    by_cases haddr : addr = (t.entries p).ipaddr
    · rw [if_pos haddr, h.get_eq_some.mpr ⟨hqmem, hqkey.trans haddr.symm⟩]
      simp [ArpTable.setMac]
    rw [if_neg haddr, ArpTable.macOf]
    cases hget : vderGetArpEntry t addr with
    | none => rfl
    | some q' =>
      have hne : q' ≠ q := by
        rintro rfl
        exact haddr ((h.get_eq_some.mp hget).2.symm.trans hqkey)
      simp [ArpTable.setMac, hne]
  -- the address is new: its entry is linked
  rename_i path hpath
  obtain ⟨hsorted, hmem⟩ := rbInsertColor_sorted h.sorted hpath
  by_cases haddr : addr = (t.entries p).ipaddr
  · subst haddr
    rw [if_pos rfl]
    exact hwf.macOf_mem ((hmem p).mpr (.inl rfl))
  rw [if_neg haddr]
  have hiff (q : Nat) : vderGetArpEntry { t with root := rbInsertColor .nil p .nil path } addr = some q ↔
      vderGetArpEntry t addr = some q := by
    rw [hwf.get_eq_some, h.get_eq_some]
    constructor
    · rintro ⟨hq, hqaddr⟩
      rcases (hmem q).mp hq with rfl | hq
      · exact absurd hqaddr.symm haddr
      · exact ⟨hq, hqaddr⟩
    rintro ⟨hq, hqaddr⟩
    exact ⟨(hmem q).mpr (.inr hq), hqaddr⟩
  rw [ArpTable.macOf, Option.ext hiff, ArpTable.macOf]

end Add

end Vde
