import Mathlib.Data.Set.Finite.Basic
import Vde.HashTable
import Vde.Lib.Machine

/-!
# The MAC address table refines a finite map

`HashWF` describes the chains; `lookup` is the map they stand for. Every operation of the table
has one lemma that says what it does to `lookup`, and a run of the table is compared with a run
of the map from addresses and VLANs to ports and times.
-/

namespace Vde

open List Function Option

variable {vlan : Nat}

lemma extmac_toNat (mac : BitVec 48) (h : vlan < 65536) : (extmac mac vlan).toNat = mac.toNat + vlan * 2 ^ 48 := by
  have hm := mac.isLt
  simp only [extmac, BitVec.toNat_add, BitVec.toNat_setWidth, BitVec.extractLsb'_toNat,
    BitVec.toNat_shiftLeft, BitVec.toNat_ofNat, Nat.shiftRight_eq_div_pow, Nat.shiftLeft_eq]
  omega

lemma extmac_inj {mac mac' : BitVec 48} {vlan' : Nat} (h : vlan < 65536) (h' : vlan' < 65536) :
    extmac mac vlan = extmac mac' vlan' ↔ mac = mac' ∧ vlan = vlan' := by
  constructor
  · intro he
    have hn := congrArg BitVec.toNat he
    rw [extmac_toNat mac h, extmac_toNat mac' h'] at hn
    have hm := mac.isLt
    have hm' := mac'.isLt
    exact ⟨BitVec.eq_of_toNat_eq (by omega), by omega⟩
  rintro ⟨rfl, rfl⟩
  rfl

lemma emac2vlan_extmac (mac : BitVec 48) (h : vlan < 65536) :
    emac2vlan (extmac mac vlan) = BitVec.ofNat 16 vlan := by
  have hm := mac.isLt
  apply BitVec.eq_of_toNat_eq
  simp only [emac2vlan, BitVec.toNat_setWidth, BitVec.toNat_ushiftRight, extmac_toNat mac h,
    Nat.shiftRight_eq_div_pow, BitVec.toNat_ofNat]
  omega

lemma calcHash_lt (bits : Nat) (src : BitVec 64) : calcHash bits src < 2 ^ bits := by
  have hpos : 0 < 2 ^ bits := Nat.two_pow_pos bits
  unfold calcHash
  dsimp only
  rw [BitVec.toNat_and, BitVec.toNat_ofNat]
  refine Nat.lt_of_le_of_lt (Nat.and_le_right) (Nat.lt_of_le_of_lt (Nat.mod_le _ _) ?_)
  omega

def lookup (t : HashTable) (key : BitVec 64) : Option HashData :=
  (findEntry t key).bind t.heap.val

/-- The buckets are well linked chains, every entry is in the bucket of its key and no key
occurs twice. -/
structure HashWF (t : HashTable) (chain : Nat → List Nat) : Prop where
  chains : ∀ k < t.size, t.heap.Chain k (chain k)
  bucket : ∀ k < t.size, ∀ a ∈ chain k, ∀ e, t.heap.val a = some e → calcHash t.hashBits e.dst = k
  unique : ∀ k < t.size, ∀ a ∈ chain k, ∀ b ∈ chain k, ∀ e f, t.heap.val a = some e →
    t.heap.val b = some f → e.dst = f.dst → a = b
  fuel : ∀ k < t.size, (chain k).length ≤ t.allocs

variable {a : Nat}

namespace HashWF

variable {t : HashTable} {chain : Nat → List Nat}

section

variable (h : HashWF t chain)

include h

lemma val_some {k : Nat} (hk : k < t.size) (ha : a ∈ chain k) : ∃ e, t.heap.val a = some e := by
  have hlive := Heap.seg_live (h.chains k hk).seg a ha
  obtain ⟨n, hn⟩ := ne_none_iff_exists'.mp hlive
  exact ⟨n.val, by simp [Heap.val, hn]⟩

lemma disjoint {k j : Nat} (hk : k < t.size) (hj : j < t.size) (ha : a ∈ chain k) (hb : a ∈ chain j) : k = j := by
  obtain ⟨e, he⟩ := h.val_some hk ha
  rw [← h.bucket k hk a ha e he, h.bucket j hj a hb e he]

lemma findEntry_eq (key : BitVec 64) : findEntry t key =
    (chain (calcHash t.hashBits key)).find? (fun a => (t.heap.val a).any (fun e => e.dst == key)) := by
  have hk : calcHash t.hashBits key < t.size := calcHash_lt _ _
  exact Heap.walk_eq_find (h.chains _ hk).seg (h.fuel _ hk)

lemma findEntry_eq_some (key : BitVec 64) (a : Nat) : findEntry t key = some a ↔
    a ∈ chain (calcHash t.hashBits key) ∧ ∃ e, t.heap.val a = some e ∧ e.dst = key := by
  have hk : calcHash t.hashBits key < t.size := calcHash_lt _ _
  rw [h.findEntry_eq]
  constructor
  · intro hf
    have hmem := mem_of_find?_eq_some hf
    have hp := find?_some hf
    obtain ⟨e, he⟩ := h.val_some hk hmem
    exact ⟨hmem, e, he, by simpa [he] using hp⟩
  rintro ⟨hmem, e, he, hkey⟩
  cases hf : (chain (calcHash t.hashBits key)).find?
      (fun a => (t.heap.val a).any (fun e => e.dst == key)) with
  | none =>
    have := find?_eq_none.mp hf a hmem
    simp [he, hkey] at this
  | some b =>
    have hmemb := mem_of_find?_eq_some hf
    have hpb := find?_some hf
    obtain ⟨f, hfv⟩ := h.val_some hk hmemb
    have hfk : f.dst = key := by simpa [hfv] using hpb
    rw [h.unique _ hk a hmem b hmemb e f he hfv (hkey.trans hfk.symm)]

lemma lookup_eq_some (key : BitVec 64) (e : HashData) : lookup t key = some e ↔ ∃ k < t.size,
    ∃ a ∈ chain k, t.heap.val a = some e ∧ e.dst = key := by
  unfold lookup
  constructor
  · intro hl
    obtain ⟨a, hf, hv⟩ := bind_eq_some_iff.mp hl
    obtain ⟨hmem, f, hfv, hfk⟩ := (h.findEntry_eq_some key a).mp hf
    obtain rfl : f = e := by simpa [hfv] using hv
    exact ⟨_, calcHash_lt _ _, a, hmem, hv, hfk⟩
  rintro ⟨k, hk, a, hmem, hv, hkey⟩
  have hb := h.bucket k hk a hmem e hv
  rw [hkey] at hb
  have hf : findEntry t key = some a :=
    (h.findEntry_eq_some key a).mpr ⟨by rwa [hb], e, hv, hkey⟩
  simp [hf, hv]

end

end HashWF

variable {e : HashData}

lemma lookup_dst {t : HashTable} {chain : Nat → List Nat} (h : HashWF t chain) {key : BitVec 64}
    (hl : lookup t key = some e) : e.dst = key := by
  obtain ⟨_, _, _, _, _, hkey⟩ := (h.lookup_eq_some key e).mp hl
  exact hkey

/-! ## Bulk deletion -/

/-- The nodes of a bucket that survive the deletion of the entries that satisfy `p`. -/
def survivors (p : HashData → Bool) (t : HashTable) (chain : Nat → List Nat) (k : Nat) : List Nat :=
  (chain k).filter (fun a => !(t.heap.val a).any p)

section

variable {t : HashTable} {chain : Nat → List Nat} (h : HashWF t chain) (p : HashData → Bool)

include h p

lemma forAllHash_loop
    (n : Nat) (hn : n ≤ t.size) :
    let hp := (range n).foldl (fun hp i => hp.sweep p t.allocs (hp.heads i)) t.heap
    (∀ k < t.size, hp.Chain k (if k < n then survivors p t chain k else chain k)) ∧
      ∀ k < t.size, ∀ a ∈ (if k < n then survivors p t chain k else chain k),
        hp.val a = t.heap.val a := by
  induction n with
  | zero => simpa using h.chains
  | succ n ih =>
    obtain ⟨hchain, hval⟩ := ih (by omega)
    simp only [range_succ, foldl_append, foldl_cons, foldl_nil] at *
    generalize hhp : (range n).foldl (fun hp i => hp.sweep p t.allocs (hp.heads i)) t.heap = hp
      at *
    have hcn : hp.Chain n ([] ++ chain n) := by simpa using hchain n (by omega)
    have hvn : ∀ a ∈ chain n, hp.val a = t.heap.val a := by
      intro a ha
      exact hval n (by omega) a (by simpa using ha)
    have hhead : hp.heads n = (chain n).head? := Heap.seg_head hcn.seg
    obtain ⟨hs, hother, hsval⟩ := Heap.sweep_spec (p := p) hcn (h.fuel n (by omega))
    have hfilter : (chain n).filter (fun a => !(hp.val a).any p) = survivors p t chain n :=
      filter_congr (fun a ha => by rw [hvn a ha])
    rw [hfilter, nil_append, ← hhead] at hs
    rw [← hhead] at hother hsval
    have hsub : ∀ k, ∀ a ∈ survivors p t chain k, a ∈ chain k :=
      fun k a ha => (mem_filter.mp ha).1
    have hold : ∀ k < t.size, k ≠ n → ∀ a ∈ (if k < n then survivors p t chain k else chain k),
        a ∉ chain n := by
      intro k hk hkn a ha hmem
      have hak : a ∈ chain k := by
        split at ha
        · exact hsub k a ha
        · exact ha
      exact hkn (h.disjoint hk (by omega) hak hmem)
    refine ⟨fun k hk => ?_, fun k hk a ha => ?_⟩
    · by_cases hkn : k = n
      · subst hkn
        simpa using hs
      have hcond : (k < n + 1) = (k < n) := by
        apply propext
        omega
      simp only [hcond]
      exact hother k _ hkn (hchain k hk) (fun a ha => by simpa using hold k hk hkn a ha)
    by_cases hkn : k = n
    · subst hkn
      rw [if_pos (by omega)] at ha
      have hmem := hsub k a ha
      rw [hsval a (.inr ?_), hvn a hmem]
      have := (mem_filter.mp ha).2
      rw [hvn a hmem]
      simpa using this
    have hcond : (k < n + 1) = (k < n) := by
      apply propext
      omega
    simp only [hcond] at ha
    rw [hsval a (.inl (hold k hk hkn a ha)), hval k hk a ha]

lemma forAllHash_wf : HashWF (forAllHash p t) (survivors p t chain) ∧ ∀ k < t.size, ∀ a ∈ survivors p t chain k,
    (forAllHash p t).heap.val a = t.heap.val a := by
  obtain ⟨hchain, hval⟩ := forAllHash_loop h p t.size (Nat.le_refl _)
  have hsub : ∀ k, ∀ a ∈ survivors p t chain k, a ∈ chain k :=
    fun k a ha => (mem_filter.mp ha).1
  have hval' : ∀ k < t.size, ∀ a ∈ survivors p t chain k,
      (forAllHash p t).heap.val a = t.heap.val a := by
    intro k hk a ha
    exact hval k hk a (by simpa [hk] using ha)
  refine ⟨⟨fun k hk => ?_, fun k hk a ha e he => ?_, fun k hk a ha b hb e f he hf => ?_,
    fun k hk => ?_⟩, hval'⟩
  · have hk' : k < t.size := hk
    have hswept := hchain k hk'
    rw [if_pos hk'] at hswept
    exact hswept
  · rw [hval' k hk a ha] at he
    exact h.bucket k hk a (hsub k a ha) e he
  · rw [hval' k hk a ha] at he
    rw [hval' k hk b hb] at hf
    exact h.unique k hk a (hsub k a ha) b (hsub k b hb) e f he hf
  · exact Nat.le_trans (length_filter_le _ _) (h.fuel k hk)

lemma lookup_forAllHash
    (key : BitVec 64) : lookup (forAllHash p t) key = (lookup t key).filter (fun e => !p e) := by
  obtain ⟨hwf, hval⟩ := forAllHash_wf h p
  have hsome : ∀ e, lookup (forAllHash p t) key = some e ↔
      (lookup t key).filter (fun e => !p e) = some e := by
    intro e
    rw [hwf.lookup_eq_some, filter_eq_some_iff, h.lookup_eq_some]
    constructor
    · rintro ⟨k, hk, a, ha, hv, hkey⟩
      rw [hval k hk a ha] at hv
      obtain ⟨hmem, hp⟩ := mem_filter.mp ha
      exact ⟨⟨k, hk, a, hmem, hv, hkey⟩, by simpa [hv] using hp⟩
    rintro ⟨⟨k, hk, a, ha, hv, hkey⟩, hp⟩
    have hmem : a ∈ survivors p t chain k := mem_filter.mpr ⟨ha, by simpa [hv] using hp⟩
    exact ⟨k, hk, a, hmem, by rw [hval k hk a hmem, hv], hkey⟩
  exact ext hsome

end

/-! ## Single entries -/

section

variable {t : HashTable} {chain : Nat → List Nat}

section

variable (h : HashWF t chain)

include h

lemma HashWF.lookup_eq_none (key : BitVec 64) : lookup t key = none ↔ ∀ k < t.size,
    ∀ a ∈ chain k, ∀ e, t.heap.val a = some e → e.dst ≠ key := by
  rw [eq_none_iff_forall_ne_some]
  constructor
  · intro hnone k hk a ha e he hkey
    exact hnone e ((h.lookup_eq_some key e).mpr ⟨k, hk, a, ha, he, hkey⟩)
  intro hall e he
  obtain ⟨k, hk, a, ha, hv, hkey⟩ := (h.lookup_eq_some key e).mp he
  exact hall k hk a ha e hv hkey

lemma HashWF.push (ha : t.heap.cells a = none)
    (hnew : lookup t e.dst = none) :
    HashWF { t with heap := t.heap.push (calcHash t.hashBits e.dst) a e, allocs := t.allocs + 1 }
      (update chain (calcHash t.hashBits e.dst)
        (a :: chain (calcHash t.hashBits e.dst))) := by
  have hb : calcHash t.hashBits e.dst < t.size := calcHash_lt _ _
  generalize hkb : calcHash t.hashBits e.dst = b at *
  have hnone := (h.lookup_eq_none e.dst).mp hnew
  have hfresh : ∀ k < t.size, a ∉ chain k := by
    intro k hk hmem
    exact Heap.seg_live (h.chains k hk).seg a hmem ha
  have hval : ∀ k < t.size, ∀ c ∈ chain k, (t.heap.push b a e).val c = t.heap.val c := by
    intro k hk c hc
    exact Heap.push_val (fun heq => hfresh k hk (heq ▸ hc))
  have hself : (t.heap.push b a e).val a = some e := Heap.push_val_self _ _ _ _
  -- the nodes of a bucket are the old ones and, in the bucket of the key, the new one
  have hmem : ∀ k, ∀ c ∈ update chain b (a :: chain b) k,
      c ∈ chain k ∨ (c = a ∧ k = b) := by
    intro k c hc
    by_cases hkb' : k = b
    · subst hkb'
      rw [update_self, mem_cons] at hc
      tauto
    rw [update_of_ne hkb'] at hc
    exact .inl hc
  refine ⟨fun k hk => ?_, fun k hk c hc f hf => ?_, fun k hk c hc d hd f g hf hg hfg => ?_,
    fun k hk => ?_⟩
  · by_cases hkb' : k = b
    · subst hkb'
      rw [update_self]
      exact (h.chains k hb).push ha e
    rw [update_of_ne hkb']
    refine (h.chains b hb).push_other ha (h.chains k hk) hkb' (fun c hc hcb => ?_) e
    exact hkb' (h.disjoint hk hb hc hcb)
  · change (t.heap.push b a e).val c = some f at hf
    rcases hmem k c hc with hold | ⟨rfl, rfl⟩
    · rw [hval k hk c hold] at hf
      exact h.bucket k hk c hold f hf
    rw [hself] at hf
    obtain rfl := some.inj hf
    exact hkb
  · change (t.heap.push b a e).val c = some f at hf
    change (t.heap.push b a e).val d = some g at hg
    rcases hmem k c hc with hcold | ⟨rfl, rfl⟩ <;> rcases hmem k d hd with hdold | ⟨rfl, hdk⟩
    · rw [hval k hk c hcold] at hf
      rw [hval k hk d hdold] at hg
      exact h.unique k hk c hcold d hdold f g hf hg hfg
    · rw [hval k hk c hcold] at hf
      rw [hself] at hg
      obtain rfl := some.inj hg
      exact absurd hfg (hnone k hk c hcold f hf)
    · rw [hval k hk d hdold] at hg
      rw [hself] at hf
      obtain rfl := some.inj hf
      exact absurd hfg.symm (hnone k hk d hdold g hg)
    · rfl
  · have hlen := h.fuel k hk
    by_cases hkb' : k = b
    · subst hkb'
      rw [update_self]
      simpa using hlen
    rw [update_of_ne hkb']
    exact Nat.le_succ_of_le hlen

lemma HashWF.setVal {f : HashData} (he : t.heap.val a = some e)
    (hdst : f.dst = e.dst) : HashWF { t with heap := t.heap.setVal a f } chain := by
  have hlive : t.heap.cells a ≠ none := by
    intro hnone
    simp [Heap.val, hnone] at he
  have hkey : ∀ c g, (t.heap.setVal a f).val c = some g → ∃ g', t.heap.val c = some g' ∧ g'.dst = g.dst := by
    intro c g hg
    rw [Heap.setVal_val f hlive] at hg
    split at hg
    · next heq =>
      obtain rfl := some.inj hg
      exact ⟨e, heq ▸ he, hdst.symm⟩
    · exact ⟨g, hg, rfl⟩
  refine ⟨fun k hk => (h.chains k hk).setVal a f, fun k hk c hc g hg => ?_,
    fun k hk c hc d hd g g' hg hg' heq => ?_, h.fuel⟩
  · obtain ⟨g', hg', hgk⟩ := hkey c g hg
    rw [← hgk]
    exact h.bucket k hk c hc g' hg'
  obtain ⟨x, hx, hxk⟩ := hkey c g hg
  obtain ⟨y, hy, hyk⟩ := hkey d g' hg'
  exact h.unique k hk c hc d hd x y hx hy (by rw [hxk, hyk, heq])

lemma HashWF.unlink {b : Nat} (hb : b < t.size) (ha : a ∈ chain b) :
    HashWF { t with heap := t.heap.unlink a } (fun k => (chain k).filter (fun c => c ≠ a)) := by
  have hval : ∀ c, c ≠ a → (t.heap.unlink a).val c = t.heap.val c := fun c hc => Heap.unlink_val hc
  have hsub : ∀ k c, c ∈ (chain k).filter (fun c => c ≠ a) → c ∈ chain k ∧ c ≠ a := by
    intro k c hc
    simpa using hc
  refine ⟨fun k hk => ?_, fun k hk c hc e he => ?_, fun k hk c hc d hd e f he hf => ?_,
    fun k hk => Nat.le_trans (length_filter_le _ _) (h.fuel k hk)⟩
  · by_cases hkb : k = b
    · subst hkb
      have hchain := h.chains k hb
      obtain ⟨xs, ys, hxy⟩ := append_of_mem ha
      rw [hxy] at hchain
      have hnd := hchain.nodup
      have hfilter : (chain k).filter (fun c => c ≠ a) = xs ++ ys := by
        have hx : ∀ c ∈ xs, c ≠ a := by
          rintro c hc rfl
          exact (nodup_append.mp hnd).2.2 c hc c (by simp) rfl
        have hy : ∀ c ∈ ys, c ≠ a := by
          rintro c hc rfl
          exact (nodup_cons.mp (nodup_append.mp hnd).2.1).1 hc
        rw [hxy, filter_append, filter_cons_of_neg (by simp),
          filter_eq_self.mpr (by simpa using hx), filter_eq_self.mpr (by simpa using hy)]
      rw [hfilter]
      exact hchain.unlink
    have hnot : ∀ c ∈ chain k, c ≠ a := by
      rintro c hc rfl
      exact hkb (h.disjoint hk hb hc ha)
    rw [filter_eq_self.mpr (by simpa using hnot)]
    refine (h.chains b hb).unlink_other ha (h.chains k hk) hkb (fun c hc hcb => ?_)
    exact hkb (h.disjoint hk hb hc hcb)
  · obtain ⟨hmem, hne⟩ := hsub k c hc
    rw [show ({ t with heap := t.heap.unlink a } : HashTable).heap.val c = t.heap.val c from
      hval c hne] at he
    exact h.bucket k hk c hmem e he
  obtain ⟨hc, hca⟩ := hsub k c hc
  obtain ⟨hd, hda⟩ := hsub k d hd
  change (t.heap.unlink a).val c = some e at he
  change (t.heap.unlink a).val d = some f at hf
  rw [hval c hca] at he
  rw [hval d hda] at hf
  exact h.unique k hk c hc d hd e f he hf

lemma lookup_push (ha : t.heap.cells a = none)
    (hnew : lookup t e.dst = none) (key : BitVec 64) :
    lookup { t with heap := t.heap.push (calcHash t.hashBits e.dst) a e, allocs := t.allocs + 1 } key
      = if key = e.dst then some e else lookup t key := by
  have hwf := h.push ha hnew
  have hb : calcHash t.hashBits e.dst < t.size := calcHash_lt _ _
  have hnone := (h.lookup_eq_none e.dst).mp hnew
  have hfresh : ∀ k < t.size, ∀ c ∈ chain k, c ≠ a := by
    rintro k hk c hc rfl
    exact Heap.seg_live (h.chains k hk).seg c hc ha
  by_cases hkey : key = e.dst
  · rw [if_pos hkey]
    apply (hwf.lookup_eq_some key e).mpr
    exact ⟨_, hb, a, by simp, Heap.push_val_self _ _ _ _, hkey.symm⟩
  rw [if_neg hkey]
  apply ext
  intro f
  rw [hwf.lookup_eq_some, h.lookup_eq_some]
  constructor
  · rintro ⟨k, hk, c, hc, hv, hf⟩
    have hold : c ∈ chain k := by
      by_cases hkb : k = calcHash t.hashBits e.dst
      · subst hkb
        rw [update_self, mem_cons] at hc
        rcases hc with rfl | hc
        · rw [show _ = some e from Heap.push_val_self t.heap _ c e] at hv
          obtain rfl := some.inj hv
          exact absurd hf.symm hkey
        · exact hc
      · rwa [update_of_ne hkb] at hc
    rw [show _ = t.heap.val c from Heap.push_val (hfresh k hk c hold)] at hv
    exact ⟨k, hk, c, hold, hv, hf⟩
  rintro ⟨k, hk, c, hc, hv, hf⟩
  refine ⟨k, hk, c, ?_, (Heap.push_val (hfresh k hk c hc)).trans hv, hf⟩
  by_cases hkb : k = calcHash t.hashBits e.dst
  · subst hkb
    rw [update_self]
    exact mem_cons_of_mem a hc
  · rwa [update_of_ne hkb]

lemma lookup_setVal {f : HashData}
    (hfind : findEntry t e.dst = some a) (he : t.heap.val a = some e) (hdst : f.dst = e.dst)
    (key : BitVec 64) : lookup { t with heap := t.heap.setVal a f } key =
      if key = e.dst then some f else lookup t key := by
  have hwf := h.setVal he hdst
  have hlive : t.heap.cells a ≠ none := by
    intro hnone
    simp [Heap.val, hnone] at he
  have hval : ∀ c, (t.heap.setVal a f).val c = if c = a then some f else t.heap.val c :=
    Heap.setVal_val f hlive
  obtain ⟨hmem, -⟩ := (h.findEntry_eq_some e.dst a).mp hfind
  have hb : calcHash t.hashBits e.dst < t.size := calcHash_lt _ _
  by_cases hkey : key = e.dst
  · rw [if_pos hkey]
    apply (hwf.lookup_eq_some key f).mpr
    exact ⟨_, hb, a, hmem, by rw [hval, if_pos rfl], hdst.trans hkey.symm⟩
  rw [if_neg hkey]
  apply ext
  intro g
  rw [hwf.lookup_eq_some, h.lookup_eq_some]
  constructor
  · rintro ⟨k, hk, c, hc, hv, hg⟩
    rw [hval] at hv
    split at hv
    · obtain rfl := some.inj hv
      exact absurd (hg.symm.trans hdst) hkey
    · exact ⟨k, hk, c, hc, hv, hg⟩
  rintro ⟨k, hk, c, hc, hv, hg⟩
  refine ⟨k, hk, c, hc, ?_, hg⟩
  rw [hval, if_neg]
  · exact hv
  rintro rfl
  rw [he] at hv
  obtain rfl := some.inj hv
  exact hkey hg.symm

lemma lookup_unlink {key' : BitVec 64}
    (hfind : findEntry t key' = some a) (key : BitVec 64) :
    lookup { t with heap := t.heap.unlink a } key = if key = key' then none else lookup t key := by
  obtain ⟨hmem, e, he, hekey⟩ := (h.findEntry_eq_some key' a).mp hfind
  have hb : calcHash t.hashBits key' < t.size := calcHash_lt _ _
  have hwf := h.unlink hb hmem
  by_cases hkey : key = key'
  · rw [if_pos hkey]
    apply (hwf.lookup_eq_none key).mpr
    intro k hk c hc f hf hfkey
    obtain ⟨hck, hca⟩ : c ∈ chain k ∧ c ≠ a := by simpa using hc
    rw [show _ = t.heap.val c from Heap.unlink_val hca] at hf
    have hkb : calcHash t.hashBits key' = k := by
      rw [← hkey, ← hfkey]
      exact h.bucket k hk c hck f hf
    subst hkb
    exact hca (h.unique _ hb c hck a hmem f e hf he (by rw [hfkey, hekey, hkey]))
  rw [if_neg hkey]
  apply ext
  intro f
  rw [hwf.lookup_eq_some, h.lookup_eq_some]
  constructor
  · rintro ⟨k, hk, c, hc, hv, hf⟩
    obtain ⟨hck, hca⟩ : c ∈ chain k ∧ c ≠ a := by simpa using hc
    rw [show _ = t.heap.val c from Heap.unlink_val hca] at hv
    exact ⟨k, hk, c, hck, hv, hf⟩
  rintro ⟨k, hk, c, hc, hv, hf⟩
  have hca : c ≠ a := by
    rintro rfl
    rw [he] at hv
    obtain rfl := some.inj hv
    exact hkey (hf.symm.trans hekey)
  exact ⟨k, hk, c, by simpa using ⟨hc, hca⟩, (Heap.unlink_val hca).trans hv, hf⟩

end

end

/-! ## What the operations do to the map -/

/-- The learning rule: a new key is stored, a key seen again on its port is refreshed, and a key
seen on another port moves there after `minPersistence` seconds of silence. -/
def learned (mem : Bool) (minPersistence now : Int) (port : Nat) (key : BitVec 64) :
    Option HashData → Option HashData
  | none => if mem then some ⟨now, port, key⟩ else none
  | some e =>
    if e.port = port ∨ minPersistence < now - e.lastSeen then some ⟨now, port, key⟩ else some e

lemma findInHashUpdate_spec {t : HashTable} {chain : Nat → List Nat} (h : HashWF t chain)
    {malloc : Option Nat} (hmalloc : ∀ a, malloc = some a → t.heap.cells a = none) (now : Int)
    (src : BitVec 48) (vlan port : Nat) :
    let t' := (findInHashUpdate malloc now src vlan port t).2
    (∃ chain', HashWF t' chain') ∧ ∀ key, lookup t' key =
      if key = extmac src vlan then
        learned malloc.isSome t.minPersistence now port (extmac src vlan) (lookup t (extmac src vlan))
      else lookup t key := by
  intro t'
  generalize hesrc : extmac src vlan = esrc at *
  cases hl : lookup t esrc with
  | none =>
    have hfind : (findEntry t esrc).bind (fun a => (t.heap.val a).map (fun e => (a, e))) = none := by
      unfold lookup at hl
      cases hf : findEntry t esrc with
      | none => rfl
      | some a => simpa [hf] using hl
    cases hm : malloc with
    | none =>
      have ht' : t' = t := by simp [t', findInHashUpdate, hesrc, hfind, hm]
      rw [ht']
      refine ⟨⟨chain, h⟩, fun key => ?_⟩
      by_cases hkey : key = esrc <;> simp [learned, hkey, hl]
    | some a =>
      have ht' : t' = { t with heap := t.heap.push (calcHash t.hashBits esrc) a ⟨now, port, esrc⟩,
                               allocs := t.allocs + 1 } := by
        simp [t', findInHashUpdate, hesrc, hfind, hm]
      rw [ht']
      have ha := hmalloc a hm
      refine ⟨⟨_, h.push ha (e := ⟨now, port, esrc⟩) hl⟩, fun key => ?_⟩
      rw [lookup_push h ha (e := ⟨now, port, esrc⟩) hl]
      simp [learned]
  | some e =>
    have hdst : e.dst = esrc := lookup_dst h hl
    obtain ⟨a, hf, hv⟩ := bind_eq_some_iff.mp hl
    have hfind : (findEntry t esrc).bind (fun a => (t.heap.val a).map (fun e => (a, e))) =
        some (a, e) := by
      simp [hf, hv]
    have hrefresh : ∀ f : HashData, f.dst = esrc →
        (∃ chain', HashWF { t with heap := t.heap.setVal a f } chain') ∧
        ∀ key, lookup { t with heap := t.heap.setVal a f } key =
          if key = esrc then some f else lookup t key := by
      intro f hfd
      refine ⟨⟨_, h.setVal hv (hfd.trans hdst.symm)⟩, fun key => ?_⟩
      rw [lookup_setVal h (by rw [hdst]; exact hf) hv (hfd.trans hdst.symm), hdst]
    by_cases hport : e.port = port
    · have ht' : t' = { t with heap := t.heap.setVal a ⟨now, port, esrc⟩ } := by
        simp [t', findInHashUpdate, hesrc, hfind, hport, hdst]
      rw [ht']
      simpa [learned, hport] using hrefresh ⟨now, port, esrc⟩ rfl
    by_cases hold : t.minPersistence < now - e.lastSeen
    · have ht' : t' = { t with heap := t.heap.setVal a ⟨now, port, esrc⟩ } := by
        simp [t', findInHashUpdate, hesrc, hfind, hport, hdst, hold]
      rw [ht']
      simpa [learned, hold] using hrefresh ⟨now, port, esrc⟩ rfl
    have ht' : t' = t := by simp [t', findInHashUpdate, hesrc, hfind, hport, hold]
    rw [ht']
    refine ⟨⟨chain, h⟩, fun key => ?_⟩
    by_cases hkey : key = esrc <;> simp [learned, hkey, hl, hport, hold]

lemma deleteHash_spec {t : HashTable} {chain : Nat → List Nat} (h : HashWF t chain) (dst : BitVec 48)
    (vlan : Nat) : (∃ chain', HashWF (deleteHash dst vlan t) chain') ∧ ∀ key, lookup (deleteHash dst vlan t) key =
    if key = extmac dst vlan then none else lookup t key := by
  unfold deleteHash
  cases hf : findEntry t (extmac dst vlan) with
  | none =>
    refine ⟨⟨chain, h⟩, fun key => ?_⟩
    by_cases hkey : key = extmac dst vlan
    · simp [lookup, hkey, hf]
    · simp [hkey]
  | some a =>
    obtain ⟨hmem, -⟩ := (h.findEntry_eq_some _ a).mp hf
    exact ⟨⟨_, h.unlink (calcHash_lt _ _) hmem⟩, lookup_unlink h hf⟩

lemma hashWF_empty {t : HashTable} (hheads : t.heap.heads = fun _ => none) : HashWF t (fun _ => []) := by
  refine ⟨fun k _ => ⟨?_, nodup_nil⟩, fun k _ a ha => ?_, fun k _ a ha => ?_, fun k _ => ?_⟩
  · rw [hheads]
    rfl
  · exact absurd ha not_mem_nil
  · exact absurd ha not_mem_nil
  · exact Nat.zero_le _

lemma lookup_empty {t : HashTable} (hheads : t.heap.heads = fun _ => none) (key : BitVec 64) :
    lookup t key = none := by
  apply ((hashWF_empty hheads).lookup_eq_none key).mpr
  intro k _ a ha
  exact absurd ha not_mem_nil

/-! ## The finite map -/

/-- What the table stands for: the port and the time of the last sighting of every known pair of
an address and a VLAN. -/
structure MacMap where
  entries : BitVec 48 → Nat → Option (Nat × Int)
  minPersistence : Int
  gcExpire : Int

namespace MacMap

def empty : MacMap := ⟨fun _ _ => none, 3, 100⟩

/-- A sighting of `src` on `port`; `mem` tells whether there is memory for a new entry. -/
def sight (mem : Bool) (now : Int) (src : BitVec 48) (vlan port : Nat) (m : MacMap) : MacMap :=
  let seen :=
    match m.entries src vlan with
    | none => if mem then some (port, now) else none
    | some (oldport, lastSeen) =>
      if oldport = port then some (port, now)
      else if m.minPersistence < now - lastSeen then some (port, now)
      else some (oldport, lastSeen)
  { m with entries := fun mac v => if mac = src ∧ v = vlan then seen else m.entries mac v }

def drop (p : Nat → Nat → Int → Bool) (m : MacMap) : MacMap :=
  { m with entries := fun mac v => (m.entries mac v).filter (fun x => !p v x.1 x.2) }

def erase (dst : BitVec 48) (vlan : Nat) (m : MacMap) : MacMap :=
  { m with entries := fun mac v => if mac = dst ∧ v = vlan then none else m.entries mac v }

end MacMap

inductive HashEvent where
  | update (malloc : Option Nat) (now : Int) (src : BitVec 48) (vlan port : Nat)
  | delete (dst : BitVec 48) (vlan : Nat)
  | deletePort (port : Nat)
  | deleteVlan (vlan : Nat)
  | deleteVlanport (vlan port : Nat)
  | deleteVlanports (vlan : Nat) (setofports : Nat → Bool)
  | flush
  | resize (hashSize : Int)
  | gc (now : Int)
  | setMinper (e : Int)
  | setGcExpire (e : Int)

def HashEvent.onTable (t : HashTable) : HashEvent → HashTable
  | update malloc now src vlan port => (findInHashUpdate malloc now src vlan port t).2
  | delete dst vlan => deleteHash dst vlan t
  | deletePort port => hashDeletePort port t
  | deleteVlan vlan => hashDeleteVlan vlan t
  | deleteVlanport vlan port => hashDeleteVlanport vlan port t
  | deleteVlanports vlan setofports => hashDeleteVlanports vlan setofports t
  | flush => hashFlush t
  | resize hashSize => (hashResize hashSize t).2
  | gc now => hashGc now t
  | setMinper e => hashSetMinper e t
  | setGcExpire e => hashSetGcExpire e t

def HashEvent.onMap (m : MacMap) : HashEvent → MacMap
  | update malloc now src vlan port => m.sight malloc.isSome now src vlan port
  | delete dst vlan => m.erase dst vlan
  | deletePort port => m.drop (fun _ q _ => q == port)
  | deleteVlan vlan => m.drop (fun v _ _ => v == vlan)
  | deleteVlanport vlan port => m.drop (fun v q _ => v == vlan && q == port)
  | deleteVlanports vlan setofports => m.drop (fun v q _ => v == vlan && setofports q)
  | flush => m.drop (fun _ _ _ => true)
  | resize hashSize => if 0 < hashSize then m.drop (fun _ _ _ => true) else m
  | gc now => m.drop (fun _ _ lastSeen => decide (lastSeen + m.gcExpire < now))
  | setMinper e => { m with minPersistence := e }
  | setGcExpire e => { m with gcExpire := e }

/-- VLANs are 16 bit numbers, `malloc` returns the address of no live entry, and a table of more
than 2 ^ 30 buckets cannot be allocated: the process exits. -/
def HashEvent.Legal (t : HashTable) : HashEvent → Prop
  | update malloc _ _ vlan _ => vlan < 65536 ∧ ∀ a, malloc = some a → t.heap.cells a = none
  | delete _ vlan => vlan < 65536
  | deleteVlan vlan => vlan < 65536
  | deleteVlanport vlan _ => vlan < 65536
  | deleteVlanports vlan _ => vlan < 65536
  | resize hashSize => hashSize ≤ 2 ^ 30
  | _ => True

def hashMachine : Machine (HashTable × MacMap) HashEvent where
  enabled s e := e.Legal s.1
  step s e := (e.onTable s.1, e.onMap s.2)

def HashStart (s : HashTable × MacMap) : Prop :=
  ∃ hashSize ≤ 2 ^ 30, s = (hashInit hashSize, MacMap.empty)

structure HashRel (t : HashTable) (m : MacMap) : Prop where
  wf : ∃ chain, HashWF t chain
  entries : ∀ mac vlan, vlan < 65536 → lookup t (extmac mac vlan) =
    (m.entries mac vlan).map (fun x => ⟨x.2, x.1, extmac mac vlan⟩)
  minPersistence : t.minPersistence = m.minPersistence
  gcExpire : t.gcExpire = m.gcExpire

lemma HashRel.start {s : HashTable × MacMap} (h : HashStart s) : HashRel s.1 s.2 := by
  obtain ⟨n, -, rfl⟩ := h
  refine ⟨⟨_, hashWF_empty rfl⟩, fun mac vlan _ => ?_, rfl, rfl⟩
  rw [lookup_empty rfl]
  rfl

section

variable {t : HashTable} {m : MacMap}

lemma HashRel.update (h : HashRel t m) {malloc : Option Nat} {now : Int} {src : BitVec 48} {port : Nat}
    (hvlan : vlan < 65536) (hmalloc : ∀ a, malloc = some a → t.heap.cells a = none) :
    HashRel (findInHashUpdate malloc now src vlan port t).2 (m.sight malloc.isSome now src vlan port) := by
  obtain ⟨⟨chain, hwf⟩, hentries, hmin, hgc⟩ := h
  obtain ⟨hwf', hlookup⟩ := findInHashUpdate_spec hwf hmalloc now src vlan port
  have hfields : (findInHashUpdate malloc now src vlan port t).2.minPersistence = t.minPersistence ∧
      (findInHashUpdate malloc now src vlan port t).2.gcExpire = t.gcExpire := by
    unfold findInHashUpdate
    dsimp only
    repeat' split
    all_goals exact ⟨rfl, rfl⟩
  refine ⟨hwf', fun mac v hv => ?_, hfields.1.trans hmin, hfields.2.trans hgc⟩
  rw [hlookup, hentries mac v hv, hentries src vlan hvlan, hmin]
  simp only [extmac_inj hv hvlan, MacMap.sight]
  by_cases hkey : mac = src ∧ v = vlan
  · obtain ⟨rfl, rfl⟩ := hkey
    simp only [and_self, if_true]
    cases hm : m.entries mac v with
    | none => cases malloc <;> simp [learned]
    | some x =>
      obtain ⟨oldport, lastSeen⟩ := x
      by_cases hport : oldport = port
      · simp [learned, hport]
      · by_cases hold : m.minPersistence < now - lastSeen <;> simp [learned, hport, hold]
  · simp [hkey]

lemma HashRel.delete (h : HashRel t m) {dst : BitVec 48} (hvlan : vlan < 65536) :
    HashRel (deleteHash dst vlan t) (m.erase dst vlan) := by
  obtain ⟨⟨chain, hwf⟩, hentries, hmin, hgc⟩ := h
  obtain ⟨hwf', hlookup⟩ := deleteHash_spec hwf dst vlan
  have hfields : (deleteHash dst vlan t).minPersistence = t.minPersistence ∧
      (deleteHash dst vlan t).gcExpire = t.gcExpire := by
    unfold deleteHash
    split <;> exact ⟨rfl, rfl⟩
  refine ⟨hwf', fun mac v hv => ?_, hfields.1.trans hmin, hfields.2.trans hgc⟩
  rw [hlookup, hentries mac v hv]
  simp only [extmac_inj hv hvlan, MacMap.erase]
  by_cases hkey : mac = dst ∧ v = vlan <;> simp [hkey]

lemma HashRel.drop (h : HashRel t m) {p : HashData → Bool} {q : Nat → Nat → Int → Bool}
    (hpq : ∀ mac v port seen, v < 65536 → p ⟨seen, port, extmac mac v⟩ = q v port seen) :
    HashRel (forAllHash p t) (m.drop q) := by
  obtain ⟨⟨chain, hwf⟩, hentries, hmin, hgc⟩ := h
  refine ⟨⟨_, (forAllHash_wf hwf p).1⟩, fun mac v hv => ?_, hmin, hgc⟩
  rw [lookup_forAllHash hwf, hentries mac v hv]
  unfold MacMap.drop
  cases hm : m.entries mac v with
  | none => simp [hm]
  | some x => by_cases hq : q v x.1 x.2 <;> simp [hm, Option.filter, hpq mac v x.1 x.2 hv, hq]

lemma emac2vlan_beq (mac : BitVec 48) {v : Nat} (hv : v < 65536) (hvlan : vlan < 65536) :
    (emac2vlan (extmac mac v) == BitVec.ofNat 16 vlan) = (v == vlan) := by
  rw [emac2vlan_extmac mac hv, Bool.eq_iff_iff, beq_iff_eq, beq_iff_eq]
  constructor
  · intro heq
    have hn := congrArg BitVec.toNat heq
    simp only [BitVec.toNat_ofNat] at hn
    omega
  rintro rfl
  rfl

lemma HashRel.resize (h : HashRel t m) (bits : Nat) :
    HashRel (hashInitBits bits (hashFlush t)) (m.drop (fun _ _ _ => true)) := by
  refine ⟨⟨_, hashWF_empty rfl⟩, fun mac v _ => ?_, h.minPersistence, h.gcExpire⟩
  rw [lookup_empty rfl]
  simp [MacMap.drop]

lemma HashRel.step (h : HashRel t m) {e : HashEvent} (he : e.Legal t) : HashRel (e.onTable t) (e.onMap m) := by
  cases e with
  | update malloc now src vlan port => exact h.update he.1 he.2
  | delete dst vlan => exact h.delete he
  | deletePort port =>
    simp only [HashEvent.onTable, HashEvent.onMap, hashDeletePort]
    apply h.drop
    intros
    rfl
  | deleteVlan vlan =>
    simp only [HashEvent.onTable, HashEvent.onMap, hashDeleteVlan]
    apply h.drop
    intro mac v _ _ hv
    exact emac2vlan_beq mac hv he
  | deleteVlanport vlan port =>
    simp only [HashEvent.onTable, HashEvent.onMap, hashDeleteVlanport]
    apply h.drop
    intro mac v _ _ hv
    rw [emac2vlan_beq mac hv he]
  | deleteVlanports vlan setofports =>
    simp only [HashEvent.onTable, HashEvent.onMap, hashDeleteVlanports]
    apply h.drop
    intro mac v _ _ hv
    rw [emac2vlan_beq mac hv he]
  | flush =>
    simp only [HashEvent.onTable, HashEvent.onMap, hashFlush]
    apply h.drop
    intros
    rfl
  | resize hashSize =>
    unfold HashEvent.onTable HashEvent.onMap hashResize
    by_cases hpos : 0 < hashSize
    · simpa [hpos] using h.resize _
    · simpa [hpos] using h
  | gc now =>
    simp only [HashEvent.onTable, HashEvent.onMap, hashGc]
    apply h.drop
    intro mac v q seen _
    rw [h.gcExpire]
  | setMinper x =>
    obtain ⟨⟨chain, hwf⟩, hentries, -, hgc⟩ := h
    exact ⟨⟨chain, ⟨hwf.chains, hwf.bucket, hwf.unique, hwf.fuel⟩⟩, hentries, rfl, hgc⟩
  | setGcExpire x =>
    obtain ⟨⟨chain, hwf⟩, hentries, hmin, -⟩ := h
    exact ⟨⟨chain, ⟨hwf.chains, hwf.bucket, hwf.unique, hwf.fuel⟩⟩, hentries, hmin, rfl⟩

end

/-- Whatever is done to the table, it stays well formed and `find_in_hash` reads the map that the
same operations produce. -/
theorem hashTable_refines_map {s : HashTable × MacMap} (h : hashMachine.Reach HashStart s) :
    (∃ chain, HashWF s.1 chain) ∧ ∀ mac vlan, vlan < 65536 → findInHash s.1 mac vlan =
    (s.2.entries mac vlan).map Prod.fst ∧ (lookup s.1 (extmac mac vlan)).map HashData.lastSeen =
    (s.2.entries mac vlan).map Prod.snd := by
  have hrel : HashRel s.1 s.2 := h.invariant (fun s => HashRel s.1 s.2)
    (fun _ => HashRel.start) (fun _ _ hs he => hs.step he)
  refine ⟨hrel.wf, fun mac vlan hvlan => ?_⟩
  have hfind : findInHash s.1 mac vlan = (lookup s.1 (extmac mac vlan)).map HashData.port := rfl
  rw [hfind, hrel.entries mac vlan hvlan]
  cases s.2.entries mac vlan <;> exact ⟨rfl, rfl⟩

/-- An address learned on port 3, seen too early on port 4 and again on port 3. -/
theorem hashTable_refines_map_learned :
    let s := hashMachine.run (hashInit 128, MacMap.empty)
      [.update (some 7) 10 0x665544332211#48 1 3, .update none 12 0x665544332211#48 1 4,
        .update none 13 0x665544332211#48 1 3]
    (∃ chain, HashWF s.1 chain) ∧ findInHash s.1 0x665544332211#48 1 = some 3 ∧
      (lookup s.1 (extmac 0x665544332211#48 1)).map HashData.lastSeen = some 13 := by
  intro s
  have hreach : hashMachine.Reach HashStart s := by
    apply Machine.Reach.run (.init _ ⟨128, by decide, rfl⟩)
    exact ⟨⟨by decide, fun _ _ => rfl⟩, ⟨by decide, by simp⟩, ⟨by decide, by simp⟩, trivial⟩
  obtain ⟨hwf, hmap⟩ := hashTable_refines_map hreach
  obtain ⟨hport, hseen⟩ := hmap 0x665544332211#48 1 (by decide)
  exact ⟨hwf, hport.trans (by decide), hseen.trans (by decide)⟩

end Vde
