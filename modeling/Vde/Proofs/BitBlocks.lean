import Vde.BitBlock

/-!
# Bit arrays stay in their words

`ba_realloc` masks the last word of the old size, so the new array has to contain that word and
must not end inside it with bits still set. The loop of a `bac_` array is bounded by its counter
alone, which every change of the set keeps right.
-/

namespace Vde

open List Function

/-! ## Words and bits -/

variable {n : Nat}

lemma wordSizeRoundInt_eq (h : n ≤ 2147483584) : wordSizeRoundInt n = wordSizeRound n := by
  rw [wordSizeRoundInt, toInt32_eq (by omega) (by omega), wordSizeRound_eq]
  omega

lemma wordSizeRoundInt_large (h : 2147483584 < n) (hn : n < 2147483648) : wordSizeRoundInt n = -33554432 := by
  obtain ⟨k, hk⟩ := toInt32_congr ((n : Int) + 63)
  have hlt := toInt32_lt ((n : Int) + 63)
  have hle := le_toInt32 ((n : Int) + 63)
  rw [wordSizeRoundInt]
  omega

lemma flatMap_wordMembers (x : BitArray) (k : Nat) : (range k).flatMap (fun i => wordMembers (x i) i) =
    (range (64 * k)).filter (fun i => baCheck x i) := by
  induction k with
  | zero => rfl
  | succ k ih =>
    rw [range_succ, flatMap_append, ih, Nat.mul_succ, range_add, filter_append,
      flatMap_cons, flatMap_nil, append_nil, filter_map, wordMembers]
    have hword : ((range 64).filter fun j => (x k).getLsbD j) =
        (range 64).filter ((fun i => baCheck x i) ∘ fun j => 64 * k + j) := by
      apply filter_congr
      intro j hj
      rw [mem_range] at hj
      rw [comp_apply, baCheck_eq, show (64 * k + j) / 64 = k by omega,
        show (64 * k + j) % 64 = j by omega]
    rw [hword, Nat.mul_comm 64 k]

lemma le_words (n : Nat) : n ≤ 64 * wordSizeRound n := by
  rw [wordSizeRound_eq]
  omega

variable {x : WordBlock}

lemma flatMap_eq_setBits (h : ∀ i, n ≤ i → i < 64 * wordSizeRound n → baCheck x.elems i = false) :
    (range (wordSizeRound n)).flatMap (fun i => wordMembers (x.elems i) i) = setBits x n := by
  obtain ⟨d, hd⟩ := Nat.exists_eq_add_of_le (le_words n)
  have hnil : ((range d).map (fun j => n + j)).filter (fun i => baCheck x.elems i) = [] := by
    apply filter_eq_nil_iff.mpr
    intro i hi
    obtain ⟨j, hj, rfl⟩ := mem_map.mp hi
    rw [mem_range] at hj
    rw [h (n + j) (by omega) (by omega)]
    exact Bool.false_ne_true
  rw [flatMap_wordMembers, hd, range_add, filter_append, hnil, append_nil, setBits]

/-! ## `ba_FORALL` and `ba_card` -/

lemma foldlM_words {σ : Type} {l : List Nat} (hl : ∀ i ∈ l, i < x.size) (body : Nat → σ → σ)
    (s : σ) : l.foldlM (fun s i => (x.load i).map (fun v => wordForall v i body s)) s =
    some ((l.flatMap (fun i => wordMembers (x.elems i) i)).foldl (fun s k => body k s) s) := by
  induction l generalizing s with
  | nil => rfl
  | cons i l ih =>
    have hload : x.load i = some (x.elems i) :=
      Block.load_eq_some.mpr ⟨hl i mem_cons_self, rfl⟩
    rw [foldlM_cons, hload, Option.map_some, Option.bind_eq_bind, Option.bind_some,
      ih (fun j hj => hl j (mem_cons_of_mem i hj)), wordForall_eq, flatMap_cons,
      foldl_append]

lemma baForallWords_eq {σ : Type} (hsize : wordSizeRound n ≤ x.size)
    (h : ∀ i, n ≤ i → i < 64 * wordSizeRound n → baCheck x.elems i = false) (body : Nat → σ → σ) (s : σ) :
    baForallWords x n body s = some ((setBits x n).foldl (fun s k => body k s) s) := by
  rw [baForallWords, foldlM_words, flatMap_eq_setBits h]
  intro i hi
  exact Nat.lt_of_lt_of_le (mem_range.mp hi) hsize

lemma foldl_count {l : List Nat} {c : Nat} (h : c + l.length < 4294967296) :
    l.foldl (fun c _ => (c + 1) % 4294967296) c = c + l.length := by
  induction l generalizing c with
  | nil => rfl
  | cons k l ih =>
    rw [length_cons] at h
    rw [foldl_cons, Nat.mod_eq_of_lt (by omega), ih (by omega), length_cons]
    omega

lemma setBits_length_le (x : WordBlock) (n : Nat) : (setBits x n).length ≤ n := by
  have h := length_filter_le (fun i => baCheck x.elems i) (range n)
  rwa [length_range] at h

/-! ## `ba_realloc` -/

variable {b : WordBlock} {fresh : Nat → BitVec 64}

lemma reallocWords_eq {k : Nat} (hk : k ≤ 33554432) : reallocWords b k fresh = b.realloc k fresh := by
  have hsize : toSize (k : Int) = k := by
    rw [toSize_of_nonneg (by omega) (by omega), Int.toNat_natCast]
  have hmod : k * 8 % 18446744073709551616 = k * 8 := Nat.mod_eq_of_lt (by omega)
  rw [reallocWords, hsize, hmod, if_pos (by rw [ptrdiffMax]; omega), Nat.mul_div_cancel k (by decide)]

lemma reallocWords_neg {k : Int} (h0 : k < 0) (h1 : -33554432 ≤ k) : (reallocWords b k fresh).size = 0 := by
  have hsize : ¬toSize k * 8 % 18446744073709551616 ≤ ptrdiffMax := by
    rw [toSize, ptrdiffMax]
    omega
  rw [reallocWords, if_neg hsize]

lemma loadWord_eq_some {i : Int} {v : BitVec 64} (h : loadWord x i = some v) :
    0 ≤ i ∧ i < x.size ∧ x.elems i.toNat = v := by
  rw [loadWord] at h
  by_cases hi : 0 ≤ i
  · rw [if_pos hi] at h
    obtain ⟨hlt, hv⟩ := Block.load_eq_some.mp h
    exact ⟨hi, by omega, hv⟩
  rw [if_neg hi] at h
  exact absurd h (by simp)

lemma bounds_of_baReallocWords {nb : WordBlock} {m : Nat} (h : baReallocWords b fresh n m = some nb) :
    1 ≤ wordSizeRoundInt n ∧ wordSizeRoundInt n ≤ (reallocWords b (wordSizeRoundInt m) fresh).size := by
  rw [baReallocWords] at h
  generalize reallocWords b (wordSizeRoundInt m) fresh = room at h ⊢
  obtain ⟨c, hc, h⟩ := Option.bind_eq_some_iff.mp h
  obtain ⟨v, hv, -⟩ := Option.bind_eq_some_iff.mp h
  obtain ⟨h0, hlt, -⟩ := loadWord_eq_some hv
  rw [(Block.size_of_storeList hc).1] at hlt
  omega

lemma masked_of_room {room : WordBlock} {w w' : Nat} (mask : BitVec 64) (hw : 1 ≤ w) (hle : w ≤ w')
    (hroom : room.size = w') : ∃ c nb, room.storeList w (replicate (w' - w) 0#64) = some c ∧
    loadWord c ((w : Int) - 1) = some (room.elems (w - 1)) ∧
    storeWord c ((w : Int) - 1) (room.elems (w - 1) &&& mask) = some nb ∧ nb.size = w' ∧ nb.elems (w - 1) =
    room.elems (w - 1) &&& mask ∧ (∀ k, w ≤ k → k < w' → nb.elems k = 0#64) ∧ ∀ k, k < w - 1 → nb.elems k =
    room.elems k := by
  have hlast : ((w : Int) - 1).toNat = w - 1 := by omega
  obtain ⟨c, hc, hcs, hin, hout⟩ := @Block.exists_storeList _ room w (replicate (w' - w) 0#64)
    (by rw [length_replicate]; omega)
  rw [length_replicate] at hout
  obtain ⟨nb, hnb, hnbs, hself, hother⟩ := @Block.exists_store _ c (w - 1)
    (room.elems (w - 1) &&& mask) (by omega)
  refine ⟨c, nb, hc, ?_, ?_, by omega, hself, ?_, ?_⟩
  · rw [loadWord, if_pos (by omega), hlast]
    exact Block.load_eq_some.mpr ⟨by omega, hout _ (Or.inl (by omega))⟩
  · rw [storeWord, if_pos (by omega), hlast, hnb]
  · intro k hk hlt
    obtain ⟨j, rfl⟩ := Nat.exists_eq_add_of_le hk
    rw [hother _ (by omega), hin j (by rw [length_replicate]; omega), getElem_replicate]
  · intro k hk
    rw [hother _ (by omega), hout k (Or.inl (by omega))]

lemma baReallocWords_eq {b : WordBlock} {fresh : Nat → BitVec 64} {n m : Nat} (hn : 1 ≤ n) (hm : m ≤ 2147483584)
    (hsize : b.size = wordSizeRound n) (hle : wordSizeRound n ≤ wordSizeRound m) : ∃ nb,
    baReallocWords b fresh n m = some nb ∧ nb.size = wordSizeRound m ∧ ∀ k < wordSizeRound m, nb.elems k =
    baRealloc b.elems n m k := by
  have hwn := wordSizeRound_eq n
  have hwm := wordSizeRound_eq m
  have hpos : 1 ≤ wordSizeRound n := by omega
  have hroom : reallocWords b (wordSizeRound m : Int) fresh = b.realloc (wordSizeRound m) fresh :=
    reallocWords_eq (by omega)
  have hold : ∀ k, k < wordSizeRound n → (b.realloc (wordSizeRound m) fresh).elems k = b.elems k := by
    intro k hk
    exact if_pos (by omega)
  have hcount : ((wordSizeRound m : Int) - wordSizeRound n).toNat = wordSizeRound m - wordSizeRound n := by
    omega
  obtain ⟨c, nb, hc, hload, hstore, hnbs, hlast, hnew, hbefore⟩ :=
    masked_of_room (BitVec.allOnes 64 >>> ((64 - n % 64) % 64)) hpos hle
      (Block.realloc_size b (wordSizeRound m) fresh)
  refine ⟨nb, ?_, hnbs, ?_⟩
  · rw [baReallocWords, wordSizeRoundInt_eq hm, wordSizeRoundInt_eq (by omega), hroom, hcount,
      Int.toNat_natCast, hc, Option.bind_eq_bind, Option.bind_some, hload, Option.bind_eq_bind,
      Option.bind_some, hstore]
  intro k hk
  rw [baRealloc]
  dsimp only
  by_cases hkl : k = wordSizeRound n - 1
  · rw [hkl, hlast, update_self, if_neg (by omega), hold _ (by omega)]
  rw [update_of_ne hkl]
  by_cases hkn : wordSizeRound n ≤ k
  · rw [if_pos ⟨hkn, hk⟩, hnew k hkn hk]
  · rw [if_neg (fun h => hkn h.1), hbefore k (by omega), hold k (by omega)]

variable {i : Nat}

lemma baCheck_baRealloc_after (x : BitArray) {m : Nat} (hn : 1 ≤ n) (hi : n ≤ i)
    (hm : i < 64 * wordSizeRound m) : baCheck (baRealloc x n m) i = false := by
  have hr := wordSizeRound_eq n
  rw [baCheck_eq, baRealloc]
  dsimp only
  by_cases hw : i / 64 = wordSizeRound n - 1
  · have hbit : ¬(64 - n % 64) % 64 + i % 64 < 64 := by omega
    rw [hw, update_self, BitVec.getLsbD_and, BitVec.getLsbD_ushiftRight,
      BitVec.getLsbD_allOnes, decide_eq_false hbit, Bool.and_false]
  have hnew : wordSizeRound n ≤ i / 64 ∧ i / 64 < wordSizeRound m := by omega
  rw [update_of_ne hw, if_pos hnew]
  exact BitVec.getLsbD_zero

lemma baCheck_congr {x y : BitArray} (h : x (i / 64) = y (i / 64)) : baCheck x i = baCheck y i := by
  rw [baCheck_eq, baCheck_eq, h]

/-- The array `nb` of `m` bits holds what `b` had below both sizes and nothing else, and the loops
over it find exactly that. -/
structure Resized (b nb : WordBlock) (n m : Nat) : Prop where
  words : nb.size = wordSizeRound m
  kept : ∀ i, i < n → i < m → baCheck nb.elems i = baCheck b.elems i
  cleared : ∀ i, min n m ≤ i → i < 64 * wordSizeRound m → baCheck nb.elems i = false
  visited : ∀ (σ : Type) (body : Nat → σ → σ) (s : σ),
    baForallWords nb m body s = some ((setBits nb m).foldl (fun s k => body k s) s)
  counted : baCardWords nb m = some (setBits nb m).length

/-- A set resized to its old number of words or more keeps its members below both sizes; no member
may lie between the new size and the old one. -/
theorem ba_realloc_right_iff {b : WordBlock} {n m : Nat} (fresh : Nat → BitVec 64)
    (hb : (b.size : Int) = wordSizeRoundInt n) (hn : n < 2147483648) (hm : m < 2147483648) :
    (∃ nb, baReallocWords b fresh n m = some nb ∧ Resized b nb n m) ↔ 1 ≤ n ∧ m ≤ 2147483584 ∧
    wordSizeRound n ≤ wordSizeRound m ∧ ∀ i, m ≤ i → i < n → baCheck b.elems i = false := by
  have hn' : n ≤ 2147483584 := by
    by_contra hlarge
    have h := wordSizeRoundInt_large (Nat.lt_of_not_le hlarge) hn
    omega
  have hwn := wordSizeRound_eq n
  rw [wordSizeRoundInt_eq hn'] at hb
  constructor
  · intro h
    obtain ⟨nb, hnb, hres⟩ := h
    have hbounds := bounds_of_baReallocWords hnb
    rw [wordSizeRoundInt_eq hn'] at hbounds
    have hm' : m ≤ 2147483584 := by
      by_contra hlarge
      rw [wordSizeRoundInt_large (Nat.lt_of_not_le hlarge) hm,
        reallocWords_neg (by decide) (by decide)] at hbounds
      omega
    have hwm := wordSizeRound_eq m
    rw [wordSizeRoundInt_eq hm', reallocWords_eq (by omega), Block.realloc_size] at hbounds
    have hpos : 1 ≤ n := by omega
    have hle : wordSizeRound n ≤ wordSizeRound m := by omega
    refine ⟨hpos, hm', hle, ?_⟩
    intro i hmi hin
    obtain ⟨nb', hnb', -, helems⟩ := @baReallocWords_eq b fresh n m hpos hm' (by omega) hle
    rw [hnb] at hnb'
    obtain rfl := Option.some.inj hnb'
    have hkept := baCheck_congr (helems (i / 64) (by omega))
    rw [baCheck_baRealloc b.elems hin] at hkept
    rw [← hkept]
    exact hres.cleared i (by omega) (by omega)
  intro h
  obtain ⟨hpos, hm', hle, hclear⟩ := h
  have hwm := wordSizeRound_eq m
  obtain ⟨nb, hnb, hnbs, helems⟩ := @baReallocWords_eq b fresh n m hpos hm' (by omega) hle
  have hafter : ∀ i, min n m ≤ i → i < 64 * wordSizeRound m → baCheck nb.elems i = false := by
    intro i hmin hi
    rw [baCheck_congr (helems (i / 64) (by omega))]
    by_cases hin : i < n
    · rw [baCheck_baRealloc b.elems hin]
      exact hclear i (by omega) hin
    · exact baCheck_baRealloc_after b.elems hpos (by omega) hi
  have hbehind : ∀ i, m ≤ i → i < 64 * wordSizeRound m → baCheck nb.elems i = false := by
    intro i hi
    exact hafter i (by omega)
  refine ⟨nb, hnb, hnbs, ?_, hafter, ?_, ?_⟩
  · intro i hin him
    rw [baCheck_congr (helems (i / 64) (by omega)), baCheck_baRealloc b.elems hin]
  · intro σ body s
    exact baForallWords_eq (Nat.le_of_eq hnbs.symm) hbehind body s
  have hlen := setBits_length_le nb m
  rw [baCardWords, baForallWords_eq (Nat.le_of_eq hnbs.symm) hbehind,
    foldl_count (by omega), Nat.zero_add]

theorem ba_realloc_right_iff_cut : ∃ nb, baReallocWords ⟨2, fun _ => 3#64⟩ (fun _ => 0#64) 70 66 = some nb ∧
    Resized ⟨2, fun _ => 3#64⟩ nb 70 66 := by
  refine (@ba_realloc_right_iff ⟨2, fun _ => 3#64⟩ 70 66 (fun _ => 0#64) (by decide) (by decide) (by decide)).mpr
    ⟨by decide, by decide, by decide, fun i hge hlt => ?_⟩
  obtain rfl | rfl | rfl | rfl : i = 66 ∨ i = 67 ∨ i = 68 ∨ i = 69 := by omega
  · decide
  · decide
  · decide
  · decide

theorem ba_realloc_outside : ((⟨2, fun _ => 0#64⟩ : WordBlock).size : Int) = wordSizeRoundInt 128 ∧ ¬∃ nb,
    baReallocWords ⟨2, fun _ => 0#64⟩ (fun _ => 0#64) 128 64 = some nb ∧ Resized ⟨2, fun _ => 0#64⟩ nb 128 64 := by
  refine ⟨by decide, ?_⟩
  intro h
  obtain ⟨nb, hnb, -⟩ := h
  have hbounds := (bounds_of_baReallocWords hnb).2
  exact absurd hbounds (by decide)

/-! ## Arrays with cardinality -/

def bacOp {n : Nat} (a : Bac) : BacOp n → Bac
  | .set i => bacSet a i
  | .clr i => bacClr a i

/-- Whether a sequence leaves an element in the set. -/
def memberAfter {n : Nat} (i : Nat) (ops : List (BacOp n)) (b : Bool) : Bool :=
  ops.foldl (fun b op => match op with
    | .set j => decide (i = j) || b
    | .clr j => !decide (i = j) && b) b

lemma bacCheck_run {n : Nat} (i : Nat) (ops : List (BacOp n)) (a : Bac) :
    bacCheck (ops.foldl bacOp a) i = memberAfter i ops (bacCheck a i) := by
  induction ops generalizing a with
  | nil => rfl
  | cons op ops ih =>
    rw [List.foldl_cons, ih, memberAfter, memberAfter, List.foldl_cons]
    cases op with
    | set j => rw [bacOp, bacCheck_bacSet]
    | clr j => rw [bacOp, bacCheck_bacClr]

/-- The block holds the words and the cardinality of the set `a`, all of whose members are below
`n`. -/
structure BacHolds (n : Nat) (x : WordBlock) (a : Bac) : Prop where
  size : x.size = wordSizeRound n + 1
  words : ∀ k < wordSizeRound n, x.elems k = a.words k
  card : x.elems (wordSizeRound n) = BitVec.ofNat 64 a.card
  wf : a.WF n
  below : ∀ i, n ≤ i → baCheck a.words i = false

lemma word_index (hi : i < n) : i / 64 < wordSizeRound n := by
  rw [wordSizeRound_eq]
  omega

lemma word_eq (i : Nat) : i >>> 6 = i / 64 := Nat.shiftRight_eq_div_pow i 6

variable {a : Bac}

lemma BacHolds.change {k : Nat} {a' : Bac} (h : BacHolds n x a)
    (hk : k < wordSizeRound n) {f : BitVec 64 → BitVec 64}
    (hother : ∀ j, j ≠ k → a'.words j = a.words j)
    (hcard : f (BitVec.ofNat 64 a.card) = BitVec.ofNat 64 a'.card) (hwf : a'.WF n)
    (hbelow : ∀ i, n ≤ i → baCheck a'.words i = false) :
    ∃ y, ((x.store k (a'.words k)).bind fun x => (x.load (wordSizeRound n)).bind fun card =>
        x.store (wordSizeRound n) (f card)) = some y ∧ BacHolds n y a' := by
  have hsize := h.size
  obtain ⟨c, hc, hcs, hck, hcj⟩ := @Block.exists_store _ x k (a'.words k) (by omega)
  obtain ⟨y, hy, hys, hyw, hyj⟩ :=
    @Block.exists_store _ c (wordSizeRound n) (f (BitVec.ofNat 64 a.card)) (by omega)
  have hload : c.load (wordSizeRound n) = some (BitVec.ofNat 64 a.card) :=
    Block.load_eq_some.mpr ⟨by omega, by rw [hcj _ (by omega), h.card]⟩
  refine ⟨y, ?_, by omega, ?_, by rw [hyw, hcard], hwf, hbelow⟩
  · rw [hc, Option.bind_some, hload, Option.bind_some, hy]
  intro j hj
  rw [hyj j (by omega)]
  by_cases hjk : j = k
  · rw [hjk, hck]
  · rw [hcj j hjk, h.words j hj, hother j hjk]

lemma BacHolds.set (h : BacHolds n x a) (hi : i < n) :
    ∃ y, bacSetWords x n i = some y ∧ BacHolds n y (bacSet a i) := by
  have hw := word_index hi
  have hsize := h.size
  have hload : x.load (i / 64) = some (a.words (i / 64)) :=
    Block.load_eq_some.mpr ⟨by omega, h.words _ hw⟩
  have hwf := h.wf.set hw
  have hbelow : ∀ j, n ≤ j → bacCheck (bacSet a i) j = false := by
    intro j hj
    rw [bacCheck_bacSet, decide_eq_false (by omega), Bool.false_or]
    exact h.below j hj
  rw [bacSetWords, word_eq, hload, Option.bind_eq_bind, Option.bind_some]
  dsimp only
  rw [bacSet, word_eq] at hwf hbelow ⊢
  by_cases hne : a.words (i / 64) ||| bitMask i ≠ a.words (i / 64)
  · rw [if_pos hne] at hwf hbelow ⊢
    rw [if_pos hne]
    have hself : baSet a.words i (i / 64) = a.words (i / 64) ||| bitMask i := by
      rw [baSet, word_eq, update_self]
    have hcard : BitVec.ofNat 64 a.card + 1 = BitVec.ofNat 64 (a.card + 1) := (BitVec.ofNat_add a.card 1).symm
    rw [← hself]
    exact h.change hw (fun j hj => baSet_word a.words hj) hcard hwf hbelow
  rw [if_neg hne] at hwf hbelow ⊢
  rw [if_neg hne]
  exact ⟨x, rfl, h⟩

lemma BacHolds.clr (h : BacHolds n x a) (hi : i < n) :
    ∃ y, bacClrWords x n i = some y ∧ BacHolds n y (bacClr a i) := by
  have hw := word_index hi
  have hsize := h.size
  have hload : x.load (i / 64) = some (a.words (i / 64)) :=
    Block.load_eq_some.mpr ⟨by omega, h.words _ hw⟩
  have hwf := h.wf.clr hw
  have hbelow : ∀ j, n ≤ j → bacCheck (bacClr a i) j = false := by
    intro j hj
    rw [bacCheck_bacClr, bacCheck, h.below j hj, Bool.and_false]
  rw [bacClrWords, word_eq, hload, Option.bind_eq_bind, Option.bind_some]
  dsimp only
  rw [bacClr, word_eq] at hwf hbelow ⊢
  by_cases hne : a.words (i / 64) &&& ~~~bitMask i ≠ a.words (i / 64)
  · rw [if_pos hne] at hwf hbelow ⊢
    rw [if_pos hne]
    have hself : baClr a.words i (i / 64) = a.words (i / 64) &&& ~~~bitMask i := by
      rw [baClr, word_eq, update_self]
    -- the bit was set, so the set is not empty
    have hmem : i ∈ baMembers a.words n := by
      apply (mem_baMembers a.words n i).mpr
      refine ⟨hw, ?_⟩
      rw [baCheck_eq]
      by_contra hbit
      exact hne ((and_not_bitMask_eq _ i).mpr (Bool.eq_false_iff.mpr hbit))
    have hpos : 1 ≤ a.card := by
      rw [h.wf]
      exact length_pos_of_mem hmem
    have hcard : BitVec.ofNat 64 a.card - 1 = BitVec.ofNat 64 (a.card - 1) := by
      obtain ⟨c, hc⟩ := Nat.exists_eq_add_of_le' hpos
      rw [hc, BitVec.ofNat_add, Nat.add_sub_cancel]
      exact BitVec.add_sub_cancel _ _
    rw [← hself]
    exact h.change hw (fun j hj => baClr_word a.words hj) hcard hwf hbelow
  rw [if_neg hne] at hwf hbelow ⊢
  rw [if_neg hne]
  exact ⟨x, rfl, h⟩

lemma BacHolds.step {n : Nat} {x : WordBlock} {a : Bac} (h : BacHolds n x a) (op : BacOp n) :
    ∃ y, bacOpWords x op = some y ∧ BacHolds n y (bacOp a op) := by
  cases op with
  | set i => exact h.set i.isLt
  | clr i => exact h.clr i.isLt

lemma BacHolds.run (ops : List (BacOp n)) (h : BacHolds n x a) :
    ∃ y, ops.foldlM bacOpWords x = some y ∧ BacHolds n y (ops.foldl bacOp a) := by
  induction ops generalizing x a with
  | nil => exact ⟨x, rfl, h⟩
  | cons op ops ih =>
    obtain ⟨y, hy, hstep⟩ := h.step op
    obtain ⟨z, hz, hrun⟩ := ih hstep
    refine ⟨z, ?_, hrun⟩
    rw [foldlM_cons, hy, Option.bind_eq_bind, Option.bind_some, hz]

lemma bacHolds_alloc (hn : n < 2147483648) (hb : bacAllocWords n = some b) :
    n ≤ 2147483584 ∧ BacHolds n b bacAlloc := by
  rw [bacAllocWords, callocWords] at hb
  by_cases hlarge : n ≤ 2147483584
  · have hw := wordSizeRound_eq n
    have hsize : toSize ((wordSizeRound n : Int) + 1) = wordSizeRound n + 1 := by
      rw [toSize_of_nonneg (by omega) (by omega)]
      omega
    rw [wordSizeRoundInt_eq hlarge, hsize, if_pos (by rw [ptrdiffMax]; omega), Option.some.injEq] at hb
    subst hb
    exact ⟨hlarge, rfl, fun k hk => rfl, rfl, bacAlloc_wf n, fun i hi => baCheck_alloc i⟩
  rw [wordSizeRoundInt_large (Nat.lt_of_not_le hlarge) hn, if_neg (by decide)] at hb
  exact absurd hb (by simp)

lemma BacHolds.members (h : BacHolds n x a) :
    (∀ i, n ≤ i → i < 64 * wordSizeRound n → baCheck x.elems i = false) ∧ (setBits x n).length = a.card := by
  have hbehind : ∀ i, n ≤ i → i < 64 * wordSizeRound n → baCheck x.elems i = false := by
    intro i hni hi
    rw [baCheck_congr (h.words (i / 64) (by omega))]
    exact h.below i hni
  refine ⟨hbehind, ?_⟩
  rw [h.wf, ← flatMap_eq_setBits hbehind, baMembers]
  congr 1
  apply flatMap_congr
  intro i hi
  rw [h.words i (mem_range.mp hi)]

lemma bacForallLoop_eq {σ : Type} {x : WordBlock} (body : Nat → σ → σ) {fuel i d : Nat} {n : Int}
    (hsize : i + d ≤ x.size) (hfuel : d < fuel)
    (hn : n = (((range' i d).flatMap (fun i => wordMembers (x.elems i) i)).length : Int)) (s : σ)
    (reads : List Nat) :
    ∃ more, bacForallLoop x body fuel i n s reads =
        some (((range' i d).flatMap (fun i => wordMembers (x.elems i) i)).foldl
          (fun s k => body k s) s, reads ++ more) ∧ ∀ r ∈ more, r < i + d := by
  induction d generalizing fuel i n s reads with
  | zero =>
    obtain ⟨fuel, rfl⟩ := Nat.exists_eq_add_of_le' (show 1 ≤ fuel by omega)
    refine ⟨[], ?_, by simp⟩
    rw [range'_zero, flatMap_nil, length_nil] at hn
    rw [bacForallLoop, if_neg (by omega), append_nil]
    rfl
  | succ d ih =>
    obtain ⟨fuel, rfl⟩ := Nat.exists_eq_add_of_le' (show 1 ≤ fuel by omega)
    rw [range'_succ, flatMap_cons] at hn ⊢
    rw [length_append] at hn
    rw [bacForallLoop, foldl_append]
    by_cases hpos : 0 < n
    · have hload : x.load i = some (x.elems i) := Block.load_eq_some.mpr ⟨by omega, rfl⟩
      obtain ⟨more, hloop, hmore⟩ := @ih fuel (i + 1) (n - (wordMembers (x.elems i) i).length) (by omega)
        (by omega) (by omega) ((wordMembers (x.elems i) i).foldl (fun s k => body k s) s) (reads ++ [i])
      refine ⟨i :: more, ?_, ?_⟩
      · rw [if_pos hpos, hload, Option.bind_eq_bind, Option.bind_some, wordForall_count, hloop,
          append_assoc]
        rfl
      intro r hr
      rcases mem_cons.mp hr with rfl | hr
      · omega
      have hlt := hmore r hr
      omega
    -- no member is left in the words that follow
    have hnil : wordMembers (x.elems i) i = [] := length_eq_zero_iff.mp (by omega)
    have hnil' : (range' (i + 1) d).flatMap (fun i => wordMembers (x.elems i) i) = [] :=
      length_eq_zero_iff.mp (by omega)
    refine ⟨[], ?_, by simp⟩
    rw [if_neg hpos, hnil, hnil', append_nil]
    rfl

lemma BacHolds.forall {σ : Type} (h : BacHolds n x a) (hn : n < 2147483648)
    (body : Nat → σ → σ) (s : σ) : ∃ reads, bacForallWords x n (wordSizeRound n + 1) body s =
    some ((setBits x n).foldl (fun s k => body k s) s, reads) ∧ ∀ i ∈ reads, i < wordSizeRound n := by
  obtain ⟨hbehind, hlen⟩ := h.members
  have hle := setBits_length_le x n
  have hsize := h.size
  have hload : x.load (wordSizeRound n) = some (BitVec.ofNat 64 a.card) :=
    Block.load_eq_some.mpr ⟨by omega, h.card⟩
  have hcard : (BitVec.ofNat 64 a.card).toNat = a.card := by
    rw [BitVec.toNat_ofNat, Nat.mod_eq_of_lt (by omega)]
  have hmem := flatMap_eq_setBits hbehind
  rw [range_eq_range'] at hmem
  obtain ⟨reads, hloop, hreads⟩ := @bacForallLoop_eq σ x body (wordSizeRound n + 1) 0
    (wordSizeRound n) (a.card : Int) (by omega) (by omega) (by rw [hmem, hlen]) s []
  rw [hmem, nil_append] at hloop
  refine ⟨reads, ?_, ?_⟩
  · rw [bacForallWords, hload, Option.bind_eq_bind, Option.bind_some, hcard, toInt32_of_lt (by omega),
      hloop]
  intro i hi
  have hlt := hreads i hi
  omega

/-- After any changes of a set of size `n` the trailing word is the number of its members, and the
loop visits them in increasing order, ends, and reads words of the bits only. -/
theorem bac_run {n : Nat} (hn : n < 2147483648) {b : WordBlock} (hb : bacAllocWords n = some b)
    (ops : List (BacOp n)) : ∃ x, ops.foldlM bacOpWords b = some x ∧ (x.elems (wordSizeRound n)).toNat =
    (setBits x n).length ∧ (∀ i < n, baCheck x.elems i = memberAfter i ops false) ∧
    (∀ i, n ≤ i → i < 64 * wordSizeRound n → baCheck x.elems i = false) ∧
    ∀ (σ : Type) (body : Nat → σ → σ) (s : σ), ∃ reads, bacForallWords x n (wordSizeRound n + 1) body s =
    some ((setBits x n).foldl (fun s k => body k s) s, reads) ∧ ∀ i ∈ reads, i < wordSizeRound n := by
  obtain ⟨x, hx, h⟩ := (bacHolds_alloc hn hb).2.run ops
  obtain ⟨hbehind, hlen⟩ := h.members
  have hle := setBits_length_le x n
  refine ⟨x, hx, ?_, fun i hi => ?_, hbehind, fun σ body s => h.forall hn body s⟩
  · rw [h.card, BitVec.toNat_ofNat, hlen, Nat.mod_eq_of_lt (by omega)]
  have hcheck : bacCheck (ops.foldl bacOp bacAlloc) i = memberAfter i ops (bacCheck bacAlloc i) := bacCheck_run i ops bacAlloc
  have hempty : bacCheck bacAlloc i = false := baCheck_alloc i
  rw [baCheck_congr (h.words (i / 64) (word_index hi)), ← hempty, ← hcheck]
  rfl

lemma bacAllocWords_small : bacAllocWords 70 = some ⟨3, fun _ => 0#64⟩ := by
  have hsize : toSize (wordSizeRoundInt (70 : Nat) + 1) = 3 := by decide
  rw [bacAllocWords, callocWords, hsize, if_pos (by decide)]

theorem bac_run_small : ∃ x, ([.set 65, .set 65, .clr 3] : List (BacOp 70)).foldlM bacOpWords ⟨3, fun _ => 0#64⟩ =
    some x ∧ (x.elems (wordSizeRound 70)).toNat = (setBits x 70).length ∧
    (∀ i < 70, baCheck x.elems i = memberAfter i ([.set 65, .set 65, .clr 3] : List (BacOp 70)) false) ∧
    (∀ i, 70 ≤ i → i < 64 * wordSizeRound 70 → baCheck x.elems i = false) ∧
    ∀ (σ : Type) (body : Nat → σ → σ) (s : σ), ∃ reads, bacForallWords x 70 (wordSizeRound 70 + 1) body s =
    some ((setBits x 70).foldl (fun s k => body k s) s, reads) ∧ ∀ i ∈ reads, i < wordSizeRound 70 :=
  bac_run (by decide) bacAllocWords_small [.set 65, .set 65, .clr 3]

end Vde
