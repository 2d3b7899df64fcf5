import Mathlib.Data.List.Nodup
import Mathlib.Data.List.Range

/-!
# Bit arrays

Sets of numbers stored as arrays of 64 bit words. The loops over a set read it word by word, so
the body may change the words already passed; `baForall_eq` and `bacForall_eq` say when such a
loop is a fold over the members the set had at the start. A `Bac` also keeps the number of its
members, which is what ends its loop.
-/

namespace Vde

open List Function BitVec

universe u

abbrev BitArray := Nat → BitVec 64

def wordSizeRound (n : Nat) : Nat := (n + 63) >>> 6

def baAlloc : BitArray := fun _ => 0#64

def bitMask (i : Nat) : BitVec 64 := 1#64 <<< (i &&& 63)

def baCheck (x : BitArray) (i : Nat) : Bool := (x (i >>> 6) &&& bitMask i) != 0#64

def baSet (x : BitArray) (i : Nat) : BitArray :=
  Function.update x (i >>> 6) (x (i >>> 6) ||| bitMask i)

def baClr (x : BitArray) (i : Nat) : BitArray :=
  Function.update x (i >>> 6) (x (i >>> 6) &&& ~~~bitMask i)

def baZap (x : BitArray) (n : Nat) : BitArray := fun k => if k < wordSizeRound n then 0#64 else x k

/-- `ba_realloc` from `n` to `m` bits: the new words are cleared, and the bits past `n` in the last of the old ones.
The words have no end here, so the access to that word of a shorter array is no fault. -/
def baRealloc (x : BitArray) (n m : Nat) : BitArray :=
  let nb : BitArray := fun k => if wordSizeRound n ≤ k ∧ k < wordSizeRound m then 0#64 else x k
  Function.update nb (wordSizeRound n - 1)
    (nb (wordSizeRound n - 1) &&& (allOnes 64 >>> ((64 - n % 64) % 64)))

def wordForall {σ : Type u} (v : BitVec 64) (i : Nat) (body : Nat → σ → σ) (s : σ) : σ :=
  (range 64).foldl (fun s j => if v.getLsbD j then body (i * 64 + j) s else s) s

def baForall {σ : Type u} (x : σ → BitArray) (n : Nat) (body : Nat → σ → σ) (s : σ) : σ :=
  (range (wordSizeRound n)).foldl (fun s i => wordForall (x s i) i body s) s

structure Bac where
  words : BitArray
  card : Nat

def bacAlloc : Bac := ⟨baAlloc, 0⟩

def bacCheck (x : Bac) (i : Nat) : Bool := baCheck x.words i

def bacSet (x : Bac) (i : Nat) : Bac :=
  if x.words (i >>> 6) ||| bitMask i ≠ x.words (i >>> 6) then ⟨baSet x.words i, x.card + 1⟩ else x

def bacClr (x : Bac) (i : Nat) : Bac :=
  if x.words (i >>> 6) &&& ~~~bitMask i ≠ x.words (i >>> 6) then ⟨baClr x.words i, x.card - 1⟩ else x

/-- The loop of `bac_FORALL` from word `i` on with `n` members still to find; `fuel` bounds the
words that are read. -/
def bacLoop {σ : Type u} (x : σ → Bac) (body : Nat → σ → σ) : Nat → Nat → Int → σ → σ
  | 0, _, _, s => s
  | fuel + 1, i, n, s =>
    if 0 < n then
      let r := wordForall ((x s).words i) i (fun k (r : σ × Int) => (body k r.1, r.2 - 1)) (s, n)
      bacLoop x body fuel (i + 1) r.2 r.1
    else s

def bacForall {σ : Type u} (x : σ → Bac) (n : Nat) (body : Nat → σ → σ) (s : σ) : σ :=
  bacLoop x body (wordSizeRound n) 0 (x s).card s

/-! ## Single bits -/

lemma wordSizeRound_eq (n : Nat) : wordSizeRound n = (n + 63) / 64 := by
  rw [wordSizeRound, Nat.shiftRight_eq_div_pow]

lemma bitMask_eq (i : Nat) : bitMask i = twoPow 64 (i % 64) := by
  rw [bitMask, twoPow_eq, show (63 : Nat) = 2 ^ 6 - 1 by rfl, Nat.and_two_pow_sub_one_eq_mod]

lemma baCheck_eq (x : BitArray) (i : Nat) : baCheck x i = (x (i / 64)).getLsbD (i % 64) := by
  have hi : i % 64 < 64 := Nat.mod_lt _ (by decide)
  rw [baCheck, bitMask_eq, Nat.shiftRight_eq_div_pow, and_twoPow]
  cases hb : (x (i / 2 ^ 6)).getLsbD (i % 64) with
  | true =>
    have hne : twoPow 64 (i % 64) ≠ 0#64 := by
      intro h
      have hbit := congrArg (fun w => w.getLsbD (i % 64)) h
      simp [hi] at hbit
    simpa using hne
  | false => simp

@[simp] lemma baCheck_alloc (i : Nat) : baCheck baAlloc i = false := by
  simp [baCheck_eq, baAlloc]

lemma index_eq_iff (i j : Nat) : i = j ↔ i / 64 = j / 64 ∧ i % 64 = j % 64 := by
  omega

variable {i : Nat}

lemma baSet_word (x : BitArray) {k : Nat} (h : k ≠ i / 64) : baSet x i k = x k := by
  rw [baSet, Nat.shiftRight_eq_div_pow, update_of_ne h]

lemma baClr_word (x : BitArray) {k : Nat} (h : k ≠ i / 64) : baClr x i k = x k := by
  rw [baClr, Nat.shiftRight_eq_div_pow, update_of_ne h]

@[simp] lemma baCheck_baSet (x : BitArray) (i j : Nat) :
    baCheck (baSet x i) j = (decide (j = i) || baCheck x j) := by
  have hi : i % 64 < 64 := Nat.mod_lt _ (by decide)
  rw [baCheck_eq, baCheck_eq]
  by_cases hw : j / 64 = i / 64
  · rw [baSet, Nat.shiftRight_eq_div_pow, hw, update_self, getLsbD_or, bitMask_eq,
      getLsbD_twoPow, Bool.or_comm]
    simp only [hi, decide_true, Bool.true_and, index_eq_iff j i, hw, true_and, eq_comm]
  have hne : j ≠ i := fun h => hw (by rw [h])
  rw [baSet_word x hw]
  simp [hne]

@[simp] lemma baCheck_baClr (x : BitArray) (i j : Nat) :
    baCheck (baClr x i) j = (!decide (j = i) && baCheck x j) := by
  have hi : i % 64 < 64 := Nat.mod_lt _ (by decide)
  have hj : j % 64 < 64 := Nat.mod_lt _ (by decide)
  rw [baCheck_eq, baCheck_eq]
  by_cases hw : j / 64 = i / 64
  · rw [baClr, Nat.shiftRight_eq_div_pow, hw, update_self, getLsbD_and, bitMask_eq,
      getLsbD_not, getLsbD_twoPow, Bool.and_comm]
    simp only [hi, hj, decide_true, Bool.true_and, index_eq_iff j i, hw, true_and, eq_comm]
  have hne : j ≠ i := fun h => hw (by rw [h])
  rw [baClr_word x hw]
  simp [hne]

lemma baCheck_baZap (x : BitArray) (n i : Nat) :
    baCheck (baZap x n) i = (!decide (i / 64 < wordSizeRound n) && baCheck x i) := by
  rw [baCheck_eq, baCheck_eq, baZap]
  by_cases h : i / 64 < wordSizeRound n <;> simp [h]

variable {n : Nat}

lemma baCheck_baRealloc (x : BitArray) {m : Nat} (h : i < n) : baCheck (baRealloc x n m) i = baCheck x i := by
  have hr := wordSizeRound_eq n
  rw [baCheck_eq, baCheck_eq, baRealloc]
  dsimp only
  have hlt : ¬(wordSizeRound n ≤ i / 64 ∧ i / 64 < wordSizeRound m) := by omega
  by_cases hw : i / 64 = wordSizeRound n - 1
  · have hlast : ¬(wordSizeRound n ≤ wordSizeRound n - 1 ∧
        wordSizeRound n - 1 < wordSizeRound m) := by omega
    have hbit : (64 - n % 64) % 64 + i % 64 < 64 := by omega
    rw [hw, update_self, if_neg hlast, getLsbD_and, getLsbD_ushiftRight,
      getLsbD_allOnes]
    simp [hbit]
  · rw [update_of_ne hw, if_neg hlt]

lemma baCheck_of_baRealloc {x : BitArray} {m : Nat} (h : baCheck (baRealloc x n m) i = true) :
    baCheck x i = true := by
  rw [baCheck_eq] at h ⊢
  rw [baRealloc] at h
  dsimp only at h
  by_cases hw : i / 64 = wordSizeRound n - 1
  · rw [← hw, update_self, getLsbD_and, Bool.and_eq_true] at h
    split at h
    · simp at h
    · exact h.1
  rw [update_of_ne hw] at h
  split at h
  · simp at h
  · exact h

/-! ## The members, and the loops over them -/

def wordMembers (v : BitVec 64) (i : Nat) : List Nat :=
  ((range 64).filter (fun j => v.getLsbD j)).map (fun j => i * 64 + j)

def baMembers (x : BitArray) (n : Nat) : List Nat :=
  (range (wordSizeRound n)).flatMap (fun i => wordMembers (x i) i)

lemma mem_wordMembers (v : BitVec 64) (i p : Nat) :
    p ∈ wordMembers v i ↔ p / 64 = i ∧ v.getLsbD (p % 64) = true := by
  unfold wordMembers
  simp only [mem_map, mem_filter, mem_range]
  constructor
  · rintro ⟨j, ⟨hj, hv⟩, rfl⟩
    have hd : (i * 64 + j) / 64 = i := by omega
    have hm : (i * 64 + j) % 64 = j := by omega
    exact ⟨hd, by rwa [hm]⟩
  rintro ⟨rfl, hv⟩
  exact ⟨p % 64, ⟨by omega, hv⟩, by omega⟩

lemma mem_baMembers (x : BitArray) (n p : Nat) :
    p ∈ baMembers x n ↔ p / 64 < wordSizeRound n ∧ baCheck x p = true := by
  unfold baMembers
  simp only [mem_flatMap, mem_range, mem_wordMembers, baCheck_eq]
  constructor
  · rintro ⟨i, hi, rfl, hv⟩
    exact ⟨hi, hv⟩
  rintro ⟨hi, hv⟩
  exact ⟨p / 64, hi, rfl, hv⟩

lemma nodup_wordMembers (v : BitVec 64) (i : Nat) : (wordMembers v i).Nodup := by
  apply Nodup.map
  · intro a b hab
    dsimp only at hab
    omega
  · exact nodup_range.filter _

lemma nodup_baMembers (x : BitArray) (n : Nat) : (baMembers x n).Nodup := by
  apply nodup_flatMap.mpr
  refine ⟨fun i _ => nodup_wordMembers _ _, nodup_range.imp ?_⟩
  intro i j hij p hpi hpj
  rw [mem_wordMembers] at hpi hpj
  exact hij (hpi.1.symm.trans hpj.1)

section

variable {σ : Type u}

lemma wordForall_eq (v : BitVec 64) (i : Nat) (body : Nat → σ → σ) (s : σ) :
    wordForall v i body s = (wordMembers v i).foldl (fun s p => body p s) s := by
  rw [wordForall, wordMembers, foldl_map, foldl_filter]

lemma foldl_keeps {ι : Type} (C : σ → Prop) {f : σ → ι → σ} {l : List ι}
    (hC : ∀ s, ∀ i ∈ l, C s → C (f s i)) {s : σ} (hs : C s) : C (l.foldl f s) := by
  induction l generalizing s with
  | nil => exact hs
  | cons i l ih =>
    rw [foldl_cons]
    exact ih (fun s j hj => hC s j (mem_cons_of_mem i hj)) (hC s i mem_cons_self hs)

lemma words_foldl {x : σ → BitArray} {body : Nat → σ → σ} (C : σ → Prop) (X : BitArray) {l : List Nat}
    (hl : l.Nodup) (hC : ∀ s, ∀ p ∈ l.flatMap (fun i => wordMembers (X i) i), C s → C (body p s))
    (hx : ∀ s, ∀ p ∈ l.flatMap (fun i => wordMembers (X i) i), C s → ∀ k, k ≠ p / 64 → x (body p s) k = x s k)
    {s : σ} (hs : C s) (hX : ∀ i ∈ l, x s i = X i) : l.foldl (fun s i => wordForall (x s i) i body s) s =
    (l.flatMap (fun i => wordMembers (X i) i)).foldl (fun s p => body p s) s := by
  induction l generalizing s with
  | nil => rfl
  | cons i l ih =>
    obtain ⟨hi, hl⟩ := nodup_cons.mp hl
    rw [flatMap_cons] at hC hx
    rw [foldl_cons, flatMap_cons, foldl_append, wordForall_eq,
      hX i mem_cons_self]
    -- the turns for the word `i` leave the words of `l` alone
    have hkeep : C ((wordMembers (X i) i).foldl (fun s p => body p s) s) ∧
        ∀ k ∈ l, x ((wordMembers (X i) i).foldl (fun s p => body p s) s) k = X k := by
      apply foldl_keeps (fun s => C s ∧ ∀ k ∈ l, x s k = X k)
      · rintro s p hp ⟨hCs, hXs⟩
        have hp' := mem_append_left (l.flatMap (fun i => wordMembers (X i) i)) hp
        refine ⟨hC s p hp' hCs, fun k hk => ?_⟩
        have hki : k ≠ p / 64 := by
          rw [((mem_wordMembers _ _ _).mp hp).1]
          exact fun h => hi (h ▸ hk)
        rw [hx s p hp' hCs k hki, hXs k hk]
      · exact ⟨hs, fun k hk => hX k (mem_cons_of_mem i hk)⟩
    exact ih hl (fun s p hp => hC s p (mem_append_right _ hp))
      (fun s p hp => hx s p (mem_append_right _ hp)) hkeep.1 hkeep.2

/-- A loop whose body changes the set at most in the word of the member it is called for visits
the members that the set had at the start. -/
lemma baForall_eq {x : σ → BitArray} {body : Nat → σ → σ} {n : Nat} {s : σ} (C : σ → Prop)
    (hs : C s) (hC : ∀ s', ∀ p ∈ baMembers (x s) n, C s' → C (body p s'))
    (hx : ∀ s', ∀ p ∈ baMembers (x s) n, C s' → ∀ k, k ≠ p / 64 → x (body p s') k = x s' k) :
    baForall x n body s = (baMembers (x s) n).foldl (fun s p => body p s) s :=
  words_foldl C (x s) nodup_range hC hx hs (fun _ _ => rfl)

lemma baForall_keeps {x : σ → BitArray} {body : Nat → σ → σ} (C : σ → Prop)
    (hC : ∀ s p, C s → C (body p s)) (n : Nat) {s : σ} (hs : C s) : C (baForall x n body s) := by
  apply foldl_keeps C
  · intro s i _ hs
    rw [wordForall_eq]
    exact foldl_keeps C (fun s p _ => hC s p) hs
  · exact hs

/-! ## Arrays with cardinality -/

lemma or_bitMask_eq (v : BitVec 64) (i : Nat) : v ||| bitMask i = v ↔ v.getLsbD (i % 64) = true := by
  have hi : i % 64 < 64 := Nat.mod_lt _ (by decide)
  rw [bitMask_eq]
  constructor
  · intro h
    have hbit := congrArg (fun w => w.getLsbD (i % 64)) h
    simpa [hi] using hbit.symm
  intro h
  apply eq_of_getLsbD_eq
  intro j hj
  by_cases hji : i % 64 = j
  · simp [← hji, h]
  · simp [hji]

lemma and_not_bitMask_eq (v : BitVec 64) (i : Nat) : v &&& ~~~bitMask i = v ↔ v.getLsbD (i % 64) = false := by
  have hi : i % 64 < 64 := Nat.mod_lt _ (by decide)
  rw [bitMask_eq]
  constructor
  · intro h
    have hbit := congrArg (fun w => w.getLsbD (i % 64)) h
    simpa [hi] using hbit
  intro h
  apply eq_of_getLsbD_eq
  intro j hj
  by_cases hji : j = i % 64
  · simp [hji, h]
  · simp [hji, hj]

lemma bacSet_eq (x : Bac) (i : Nat) : bacSet x i = if bacCheck x i then x else ⟨baSet x.words i, x.card + 1⟩ := by
  have h := or_bitMask_eq (x.words (i >>> 6)) i
  rw [bacSet, bacCheck, baCheck_eq, ← Nat.shiftRight_eq_div_pow i 6]
  cases hb : (x.words (i >>> 6)).getLsbD (i % 64) <;> simp_all

lemma bacClr_eq (x : Bac) (i : Nat) : bacClr x i = if bacCheck x i then ⟨baClr x.words i, x.card - 1⟩ else x := by
  have h := and_not_bitMask_eq (x.words (i >>> 6)) i
  rw [bacClr, bacCheck, baCheck_eq, ← Nat.shiftRight_eq_div_pow i 6]
  cases hb : (x.words (i >>> 6)).getLsbD (i % 64) <;> simp_all

@[simp] lemma bacCheck_bacSet (x : Bac) (i j : Nat) :
    bacCheck (bacSet x i) j = (decide (j = i) || bacCheck x j) := by
  rw [bacSet_eq]
  split
  · next h =>
    by_cases hji : j = i
    · simp [hji, h]
    · simp [hji]
  · exact baCheck_baSet _ _ _

@[simp] lemma bacCheck_bacClr (x : Bac) (i j : Nat) :
    bacCheck (bacClr x i) j = (!decide (j = i) && bacCheck x j) := by
  rw [bacClr_eq]
  split
  · exact baCheck_baClr _ _ _
  next h =>
  by_cases hji : j = i
  · simp [hji, h]
  · simp [hji]

def Bac.WF (x : Bac) (n : Nat) : Prop := x.card = (baMembers x.words n).length

lemma bacAlloc_wf (n : Nat) : bacAlloc.WF n := by
  have hnil : baMembers bacAlloc.words n = [] := by
    apply eq_nil_iff_forall_not_mem.mpr
    intro p hp
    have := ((mem_baMembers _ _ _).mp hp).2
    simp [bacAlloc] at this
  rw [Bac.WF, hnil]
  rfl

lemma baMembers_perm_cons {x y : BitArray} (hi : i / 64 < wordSizeRound n) (hx : baCheck x i = false)
    (hy : ∀ j, baCheck y j = (decide (j = i) || baCheck x j)) : (baMembers y n).Perm (i :: baMembers x n) := by
  apply (perm_ext_iff_of_nodup (nodup_baMembers y n) _).mpr
  · intro j
    rw [mem_cons, mem_baMembers, mem_baMembers, hy]
    by_cases hji : j = i
    · subst hji
      simp [hi]
    · simp [hji]
  apply nodup_cons.mpr
  refine ⟨fun hmem => ?_, nodup_baMembers x n⟩
  rw [mem_baMembers, hx] at hmem
  exact absurd hmem.2 (by simp)

lemma Bac.WF.set {x : Bac} (h : x.WF n) (hi : i / 64 < wordSizeRound n) : (bacSet x i).WF n := by
  rw [bacSet_eq]
  cases hc : bacCheck x i with
  | true => simpa using h
  | false =>
    have hperm := baMembers_perm_cons hi hc (fun j => baCheck_baSet x.words i j)
    simp only [Bool.false_eq_true, if_false]
    rw [Bac.WF, hperm.length_eq, length_cons, h]

lemma Bac.WF.clr {x : Bac} (h : x.WF n) (hi : i / 64 < wordSizeRound n) : (bacClr x i).WF n := by
  rw [bacClr_eq]
  cases hc : bacCheck x i with
  | false => simpa using h
  | true =>
    have hi' : baCheck (baClr x.words i) i = false := by simp
    have hperm := baMembers_perm_cons (y := x.words) hi hi' (fun j => by
      have hc' : baCheck x.words i = true := hc
      by_cases hji : j = i
      · simp [hji, hc']
      · simp [hji])
    have hlen := hperm.length_eq
    have hcard : x.card = (baMembers x.words n).length := h
    simp only [if_true]
    rw [Bac.WF]
    rw [length_cons] at hlen
    dsimp only
    omega

lemma wordForall_count (v : BitVec 64) (i : Nat) (body : Nat → σ → σ) (s : σ) (n : Int) :
    wordForall v i (fun k (r : σ × Int) => (body k r.1, r.2 - 1)) (s, n) =
    ((wordMembers v i).foldl (fun s p => body p s) s, n - (wordMembers v i).length) := by
  rw [wordForall_eq]
  generalize wordMembers v i = l
  induction l generalizing s n with
  | nil => simp
  | cons p l ih =>
    rw [foldl_cons, ih, foldl_cons, length_cons]
    congr 1
    omega

lemma bacLoop_eq {x : σ → Bac} {body : Nat → σ → σ} (C : σ → Prop) (X : BitArray) (hX : ∀ s, C s → (x s).words = X)
    {fuel i : Nat} {n : Int} (hC : ∀ s p, C s → baCheck X p = true → C (body p s))
    (hn : n = (((range' i fuel).flatMap (fun i => wordMembers (X i) i)).length : Int)) {s : σ} (hs : C s) :
    bacLoop x body fuel i n s =
    ((range' i fuel).flatMap (fun i => wordMembers (X i) i)).foldl (fun s p => body p s) s := by
  induction fuel generalizing i n s with
  | zero => rfl
  | succ fuel ih =>
    rw [range'_succ, flatMap_cons] at hn ⊢
    rw [length_append] at hn
    rw [bacLoop, foldl_append]
    by_cases hpos : 0 < n
    · rw [if_pos hpos, hX s hs, wordForall_count]
      apply ih
      · omega
      apply foldl_keeps C _ hs
      intro s p hp hs
      obtain ⟨hw, hbit⟩ := (mem_wordMembers _ _ _).mp hp
      apply hC s p hs
      rw [baCheck_eq, hw]
      exact hbit
    -- no member is left, so the rest of the fold is empty too
    have hnil : wordMembers (X i) i = [] := length_eq_zero_iff.mp (by omega)
    have hnil' : (range' (i + 1) fuel).flatMap (fun i => wordMembers (X i) i) = [] :=
      length_eq_zero_iff.mp (by omega)
    rw [if_neg hpos, hnil, hnil']
    rfl

lemma bacForall_keeps {x : σ → Bac} {body : Nat → σ → σ} (C : σ → Prop)
    (hC : ∀ s p, C s → C (body p s)) (n : Nat) {s : σ} (hs : C s) : C (bacForall x n body s) := by
  have hloop : ∀ fuel i m s, C s → C (bacLoop x body fuel i m s) := by
    intro fuel
    induction fuel with
    | zero => exact fun _ _ _ hs => hs
    | succ fuel ih =>
      intro i m s hs
      rw [bacLoop]
      split
      · rw [wordForall_count]
        exact ih _ _ _ (foldl_keeps C (fun s p _ => hC s p) hs)
      · exact hs
  exact hloop _ _ _ s hs

lemma bacForall_comm {x : σ → Bac} {body : Nat → σ → σ} (f : σ → σ) (hx : ∀ s, x (f s) = x s)
    (hbody : ∀ p s, body p (f s) = f (body p s)) (n : Nat) (s : σ) :
    bacForall x n body (f s) = f (bacForall x n body s) := by
  have hloop : ∀ fuel i m s, bacLoop x body fuel i m (f s) = f (bacLoop x body fuel i m s) := by
    intro fuel
    induction fuel with
    | zero => exact fun _ _ _ => rfl
    | succ fuel ih =>
      intro i m s
      rw [bacLoop, bacLoop]
      split
      · rw [wordForall_count, wordForall_count, hx]
        dsimp only
        rw [foldl_hom f (fun s p => hbody p s), ih]
      · rfl
  rw [bacForall, bacForall, hx]
  exact hloop _ _ _ s

/-- With the right cardinality and a body that does not touch the set, the loop visits its
members. -/
lemma bacForall_eq {x : σ → Bac} {body : Nat → σ → σ} {s : σ} (C : σ → Prop)
    (hs : C s) (hwf : (x s).WF n) (hX : ∀ s', C s' → (x s').words = (x s).words)
    (hC : ∀ s' p, C s' → baCheck (x s).words p = true → C (body p s')) :
    bacForall x n body s = (baMembers (x s).words n).foldl (fun s p => body p s) s := by
  rw [bacForall, baMembers, range_eq_range']
  apply bacLoop_eq C (x s).words hX hC _ hs
  rw [← range_eq_range', ← baMembers, hwf]

end

end Vde
