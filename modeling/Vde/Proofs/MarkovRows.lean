import Mathlib.Data.List.Rotate
import Vde.Markov

/-!
# The rows of the Markov chain

A row is walked along the rotation that begins behind its diagonal. Resizing copies the edges between the
nodes that stay, and leaves every row at 100 again. The number of elements of the new block is computed as an
`int`.
-/

namespace Vde

open List

/-- The weight of an edge that is copied; the edges of new nodes have none. -/
def edgeWeight (s : MarkovModel) (i j : Nat) : ℚ :=
  if i < s.numnodes ∧ j < s.numnodes then adjmapN s.adjmap i j s.numnodes else 0

/-- The rows of `adjmap` are in its block and sum to 100, the current node is one of the nodes, and so is every
node that `markov_step` can return. -/
structure MarkovRight (s : MarkovModel) : Prop where
  inside : ∀ i < s.numnodes, ∀ j < s.numnodes, i * s.numnodes + j < s.adjsize
  sum : ∀ i < s.numnodes, ((range s.numnodes).map (fun j => adjmapN s.adjmap i j s.numnodes)).sum = 100
  current : s.current < s.numnodes
  step : ∀ i num, (markovStep i num s).1 < s.numnodes

def KeepsEdges (s : MarkovModel) : MarkovEvent → Prop
  | .resize n now num =>
    0 < n → (setmarkovResize n now num s).numnodes = n.toNat ∧
      ∀ i < n.toNat, ∀ j < n.toNat, i ≠ j →
        adjmapN (setmarkovResize n now num s).adjmap i j n.toNat = edgeWeight s i j
  | _ => True

def SquareFits : MarkovModel → MarkovEvent → Prop
  | _, .resize n _ _ => n ≤ 46340
  | _, _ => True

/-- What holds of the chain as long as its blocks were large enough. -/
structure MarkovInv (s : MarkovModel) : Prop where
  some : 0 < s.numnodes
  few : s.numnodes ≤ 46340
  size : s.adjsize = s.numnodes * s.numnodes
  sum : ∀ i < s.numnodes, ((range s.numnodes).map (fun j => adjmapN s.adjmap i j s.numnodes)).sum = 100
  current : s.current < s.numnodes

section

variable {s : MarkovModel} {m : Nat → ℚ} {n i j i' k : Nat} {v : ℚ}

/-! ### Elements -/

lemma place_injective (hj : j < n) (hk : k < n) (h : i' * n + k = i * n + j) : i' = i ∧ k = j := by
  have hpos : 0 < n := Nat.lt_of_le_of_lt (Nat.zero_le j) hj
  have hcol : k = j := by
    have hmod := congrArg (· % n) h
    simpa [Nat.mul_add_mod_of_lt, Nat.mod_eq_of_lt hj, Nat.mod_eq_of_lt hk] using hmod
  refine ⟨?_, hcol⟩
  rw [hcol] at h
  exact Nat.eq_of_mul_eq_mul_right hpos (Nat.add_right_cancel h)

lemma adjmapN_self : adjmapN (setAdjmapN m i j n v) i j n = v := by
  rw [adjmapN, setAdjmapN, Function.update_self]

lemma adjmapN_of_ne (hj : j < n) (hk : k < n) (h : ¬(i' = i ∧ k = j)) :
    adjmapN (setAdjmapN m i j n v) i' k n = adjmapN m i' k n := by
  rw [adjmapN, setAdjmapN, Function.update_of_ne (fun heq => h (place_injective hj hk heq)), adjmapN]

lemma rot_lt (hn : 0 < n) : rot n i j < n := Nat.mod_lt _ hn

lemma rot_zero (hi : i < n) : rot n i 0 = i := Nat.mod_eq_of_lt hi

lemma rot_ne (hi : i < n) (hj : 1 ≤ j) (hjn : j < n) : rot n i j ≠ i := by
  intro h
  rw [rot] at h
  by_cases hwrap : i + j < n
  · rw [Nat.mod_eq_of_lt hwrap] at h
    omega
  rw [Nat.mod_eq_sub_mod (by omega), Nat.mod_eq_of_lt (by omega)] at h
  omega

lemma range_eq_cons (hn : 0 < n) : range n = 0 :: range' 1 (n - 1) := by
  obtain ⟨p, rfl⟩ := Nat.exists_eq_succ_of_ne_zero (Nat.pos_iff_ne_zero.mp hn)
  rw [range_eq_range', range'_succ]
  rfl

lemma range_map_rot : (range n).map (rot n i) = (range n).rotate i := by
  apply ext_getElem
  · simp
  intro k hk hk'
  simp [getElem_rotate, rot, Nat.add_comm]

lemma sum_rot (f : Nat → ℚ) : ((range n).map (fun j => f (rot n i j))).sum = ((range n).map f).sum := by
  have hmap : (range n).map (fun j => f (rot n i j)) = ((range n).rotate i).map f := by
    rw [← range_map_rot, map_map]
    rfl
  rw [hmap]
  exact ((rotate_perm _ _).map f).sum_eq

lemma sum_eq_hundred (hi : i < n) (f : Nat → ℚ)
    (hdiag : f i = 100 - ((range' 1 (n - 1)).map (fun j => f (rot n i j))).sum) : ((range n).map f).sum = 100 := by
  rw [← sum_rot, range_eq_cons (by omega), map_cons, sum_cons, rot_zero hi, hdiag]
  ring

/-! ### `markov_compute` -/

lemma compute_foldl (hi : i < n) (js : List Nat) (hjs : ∀ j ∈ js, 1 ≤ j ∧ j < n) :
    js.foldl (fun m j => setAdjmapN m i i n (adjmapN m i i n - adjmapN m i (rot n i j) n)) (setAdjmapN m i i n v) =
    setAdjmapN m i i n (v - (js.map (fun j => adjmapN m i (rot n i j) n)).sum) := by
  induction js generalizing v with
  | nil => rw [foldl_nil, map_nil, sum_nil, sub_zero]
  | cons j js ih =>
    obtain ⟨hj, hjn⟩ := hjs j mem_cons_self
    have hother : adjmapN (setAdjmapN m i i n v) i (rot n i j) n = adjmapN m i (rot n i j) n :=
      adjmapN_of_ne hi (rot_lt (by omega)) (fun h => rot_ne hi hj hjn h.2)
    have hagain : ∀ w, setAdjmapN (setAdjmapN m i i n v) i i n w = setAdjmapN m i i n w :=
      fun w => Function.update_idem _ _ _
    rw [foldl_cons, adjmapN_self, hother, hagain, ih (fun k hk => hjs k (mem_cons_of_mem _ hk)),
      map_cons, sum_cons, sub_sub]

lemma mem_rotation {j : Nat} (h : j ∈ range' 1 (n - 1)) : 1 ≤ j ∧ j < n := by
  rw [mem_range'_1] at h
  omega

lemma markovCompute_sum (hi : i < s.numnodes) :
    ((range s.numnodes).map (fun j => adjmapN (markovCompute i s).adjmap i j s.numnodes)).sum = 100 := by
  apply sum_eq_hundred hi
  rw [markovCompute]
  dsimp only
  rw [compute_foldl hi _ (fun j hj => mem_rotation hj), adjmapN_self]
  congr 2
  apply map_congr_left
  intro j hj
  obtain ⟨hj1, hjn⟩ := mem_rotation hj
  rw [adjmapN_of_ne hi (rot_lt (by omega)) (fun h => rot_ne hi hj1 hjn h.2)]

lemma markovCompute_of_ne (hi : i < s.numnodes) (hne : i' ≠ i) (hk : k < s.numnodes) :
    adjmapN (markovCompute i s).adjmap i' k s.numnodes = adjmapN s.adjmap i' k s.numnodes := by
  rw [markovCompute]
  dsimp only
  rw [compute_foldl hi _ (fun j hj => mem_rotation hj), adjmapN_of_ne hi hk (fun h => hne h.1)]

/-! ### `copyadjmap` -/

lemma copyEdge_apply (hi : i < n) (hj : 1 ≤ j) (hjn : j < n) (hk : k < n) (hfresh : adjmapN m i (rot n i j) n = 0) :
    adjmapN (copyEdge n i s m j) i' k n = if i' = i ∧ k =
    i then adjmapN m i i n - edgeWeight s i (rot n i j) else if i' = i ∧ k =
    rot n i j then edgeWeight s i (rot n i j) else adjmapN m i' k n := by
  have hne := rot_ne hi hj hjn
  have hlt : rot n i j < n := rot_lt (by omega)
  have hnew : (i + j) % n = rot n i j := rfl
  rw [copyEdge, hnew]
  dsimp only
  by_cases hold : i < s.numnodes ∧ rot n i j < s.numnodes
  · rw [if_pos hold, edgeWeight, if_pos hold]
    by_cases hdiag : i' = i ∧ k = i
    · obtain ⟨rfl, rfl⟩ := hdiag
      rw [if_pos ⟨rfl, rfl⟩, adjmapN_self, adjmapN_of_ne hlt hi (fun h => hne h.2.symm)]
    rw [if_neg hdiag, adjmapN_of_ne hi hk hdiag]
    by_cases hedge : i' = i ∧ k = rot n i j
    · obtain ⟨rfl, rfl⟩ := hedge
      rw [if_pos ⟨rfl, rfl⟩, adjmapN_self]
    · rw [if_neg hedge, adjmapN_of_ne hlt hk hedge]
  rw [if_neg hold, edgeWeight, if_neg hold, sub_zero]
  by_cases hdiag : i' = i ∧ k = i
  · obtain ⟨rfl, rfl⟩ := hdiag
    rw [if_pos ⟨rfl, rfl⟩]
  rw [if_neg hdiag]
  by_cases hedge : i' = i ∧ k = rot n i j
  · obtain ⟨rfl, rfl⟩ := hedge
    rw [if_pos ⟨rfl, rfl⟩, hfresh]
  · rw [if_neg hedge]

lemma copyRow_apply (hi : i < n) (hk : k < n) (js : List Nat) (hjs : ∀ j ∈ js, 1 ≤ j ∧ j < n)
    (hfresh : ∀ j ∈ js, adjmapN m i (rot n i j) n = 0) (hnodup : (js.map (rot n i)).Nodup) :
    adjmapN (js.foldl (copyEdge n i s) m) i' k n = if i' = i ∧ k =
    i then adjmapN m i i n - (js.map (fun j => edgeWeight s i (rot n i j))).sum else if i' = i ∧
    k ∈ js.map (rot n i) then edgeWeight s i k else adjmapN m i' k n := by
  induction js generalizing m with
  | nil =>
    by_cases hdiag : i' = i ∧ k = i
    · rw [if_pos hdiag, hdiag.1, hdiag.2, map_nil, sum_nil, sub_zero, foldl_nil]
    · rw [if_neg hdiag, if_neg (fun h => not_mem_nil h.2), foldl_nil]
  | cons j js ih =>
    obtain ⟨hj, hjn⟩ := hjs j mem_cons_self
    have hturn := fun i' k (hk : k < n) =>
      @copyEdge_apply s m n i j i' k hi hj hjn hk (hfresh j mem_cons_self)
    have hne := rot_ne hi hj hjn
    rw [map_cons, nodup_cons] at hnodup
    have hrest : ∀ l ∈ js, adjmapN (copyEdge n i s m j) i (rot n i l) n = 0 := by
      intro l hl
      obtain ⟨hl1, hln⟩ := hjs l (mem_cons_of_mem _ hl)
      have hother : rot n i l ≠ rot n i j := by
        intro heq
        exact hnodup.1 (heq ▸ mem_map_of_mem hl)
      rw [hturn i _ (rot_lt (by omega)), if_neg (fun h => rot_ne hi hl1 hln h.2), if_neg (fun h => hother h.2)]
      exact hfresh l (mem_cons_of_mem _ hl)
    rw [foldl_cons, ih (fun l hl => hjs l (mem_cons_of_mem _ hl)) hrest hnodup.2, hturn i i hi,
      if_pos (And.intro rfl rfl : i = i ∧ i = i), hturn i' k hk]
    by_cases hdiag : i' = i ∧ k = i
    · rw [if_pos hdiag, if_pos hdiag, map_cons, sum_cons, sub_sub]
    rw [if_neg hdiag, if_neg hdiag, if_neg hdiag]
    by_cases htail : i' = i ∧ k ∈ js.map (rot n i)
    · have hmem : k ∈ (j :: js).map (rot n i) := mem_cons_of_mem _ htail.2
      rw [if_pos htail, if_pos ⟨htail.1, hmem⟩]
    rw [if_neg htail]
    by_cases hhead : i' = i ∧ k = rot n i j
    · have hmem : k ∈ (j :: js).map (rot n i) := hhead.2 ▸ mem_cons_self
      rw [if_pos hhead, if_pos ⟨hhead.1, hmem⟩, hhead.2]
    have hnone : ¬(i' = i ∧ k ∈ (j :: js).map (rot n i)) := by
      rintro ⟨hi', hmem⟩
      rcases mem_cons.mp hmem with hk' | hk'
      · exact hhead ⟨hi', hk'⟩
      · exact htail ⟨hi', hk'⟩
    rw [if_neg hhead, if_neg hnone]

lemma rotation_nodup (hi : i < n) : ((range' 1 (n - 1)).map (rot n i)).Nodup := by
  have hall : ((range n).map (rot n i)).Nodup := by
    rw [range_map_rot]
    exact nodup_rotate.mpr nodup_range
  rw [range_eq_cons (by omega), map_cons, nodup_cons] at hall
  exact hall.2

lemma mem_rotation_of_ne (hi : i < n) (hk : k < n) (hne : k ≠ i) : k ∈ (range' 1 (n - 1)).map (rot n i) := by
  have hall : k ∈ (range n).map (rot n i) := by
    rw [range_map_rot, mem_rotate]
    exact mem_range.mpr hk
  rw [range_eq_cons (by omega), map_cons, mem_cons, rot_zero hi] at hall
  exact hall.resolve_left hne

lemma copyRows_apply (is : List Nat) (his : ∀ i ∈ is, i < n) (hnodup : is.Nodup)
    (hfresh : ∀ i ∈ is, ∀ k < n, adjmapN m i k n = 0) (hk : k < n) :
    adjmapN (is.foldl
        (fun newmap i => (range' 1 (n - 1)).foldl (copyEdge n i s) (setAdjmapN newmap i i n 100)) m) i' k n =
      if i' ∈ is then
        if k = i' then 100 - ((range' 1 (n - 1)).map (fun j => edgeWeight s i' (rot n i' j))).sum
        else edgeWeight s i' k
      else adjmapN m i' k n := by
  induction is generalizing m with
  | nil => simp
  | cons i is ih =>
    have hi := his i mem_cons_self
    rw [nodup_cons] at hnodup
    have hjs : ∀ j ∈ range' 1 (n - 1), 1 ≤ j ∧ j < n := fun j hj => mem_rotation hj
    have hclear : ∀ j ∈ range' 1 (n - 1), adjmapN (setAdjmapN m i i n 100) i (rot n i j) n = 0 := by
      intro j hj
      obtain ⟨hj1, hjn⟩ := hjs j hj
      have hlt : rot n i j < n := rot_lt (by omega)
      rw [adjmapN_of_ne hi hlt (fun h => rot_ne hi hj1 hjn h.2)]
      exact hfresh i mem_cons_self _ hlt
    have hrow := fun i' k (hk : k < n) =>
      @copyRow_apply s (setAdjmapN m i i n 100) n i i' k hi hk _ hjs hclear (rotation_nodup hi)
    have hother : ∀ i' ≠ i, ∀ k < n,
        adjmapN ((range' 1 (n - 1)).foldl (copyEdge n i s) (setAdjmapN m i i n 100)) i' k n =
          adjmapN m i' k n := by
      intro i' hne k hk
      rw [hrow i' k hk, if_neg (fun h => hne h.1), if_neg (fun h => hne h.1),
        adjmapN_of_ne hi hk (fun h => hne h.1)]
    rw [foldl_cons, ih (fun l hl => his l (mem_cons_of_mem _ hl)) hnodup.2]
    · by_cases hhead : i' = i
      · subst hhead
        rw [if_neg hnodup.1, if_pos mem_cons_self, hrow i' k hk]
        by_cases hdiag : k = i'
        · rw [if_pos ⟨rfl, hdiag⟩, if_pos hdiag, adjmapN_self]
        · rw [if_neg (fun h => hdiag h.2), if_neg hdiag, if_pos ⟨rfl, mem_rotation_of_ne hi hk hdiag⟩]
      rw [hother i' hhead k hk]
      simp only [mem_cons, hhead, false_or]
    intro l hl k hk
    have hne : l ≠ i := by
      intro heq
      exact hnodup.1 (heq ▸ hl)
    rw [hother l hne k hk]
    exact hfresh l (mem_cons_of_mem _ hl) k hk

lemma copyadjmap_apply (hi : i < n) (hk : k < n) : adjmapN (copyadjmap n (fun _ => 0) s) i k n = if k =
    i then 100 - ((range' 1 (n - 1)).map (fun j => edgeWeight s i (rot n i j))).sum else edgeWeight s i k := by
  rw [copyadjmap, copyRows_apply _ (fun i hi => mem_range.mp hi) nodup_range (fun _ _ _ _ => rfl) hk,
    if_pos (mem_range.mpr hi)]

lemma copyadjmap_sum (hi : i < n) :
    ((range n).map (fun j => adjmapN (copyadjmap n (fun _ => 0) s) i j n)).sum = 100 := by
  apply sum_eq_hundred hi
  rw [copyadjmap_apply hi hi, if_pos rfl]
  congr 2
  apply map_congr_left
  intro j hj
  obtain ⟨hj1, hjn⟩ := mem_rotation hj
  rw [copyadjmap_apply hi (rot_lt (by omega)), if_neg (rot_ne hi hj1 hjn)]

/-! ### Steps -/

lemma markovStepLoop_lt (hn : 0 < s.numnodes) {turns : Nat} {num : ℚ} (hk : k < s.numnodes) :
    markovStepLoop s i turns j num k < s.numnodes := by
  induction turns generalizing j num k with
  | zero => exact hk
  | succ turns ih =>
    rw [markovStepLoop]
    split
    · exact rot_lt hn
    · exact ih (rot_lt hn)

lemma markovStep_lt (hn : 0 < s.numnodes) (i : Nat) (num : ℚ) : (markovStep i num s).1 < s.numnodes :=
  markovStepLoop_lt hn hn

lemma MarkovInv.right (hs : MarkovInv s) : MarkovRight s := by
  refine ⟨?_, hs.sum, hs.current, markovStep_lt hs.some⟩
  intro i hi j hj
  rw [hs.size]
  calc
    i * s.numnodes + j < i * s.numnodes + s.numnodes := Nat.add_lt_add_left hj _
    _ = (i + 1) * s.numnodes := (Nat.succ_mul _ _).symm
    _ ≤ s.numnodes * s.numnodes := Nat.mul_le_mul_right _ hi

lemma MarkovInv.clock (hs : MarkovInv s) (time : ℚ) (next : Int) :
    MarkovInv { s with time := time, next := next } :=
  ⟨hs.some, hs.few, hs.size, hs.sum, hs.current⟩

lemma MarkovInv.move (hs : MarkovInv s) (num : ℚ) : MarkovInv (markovMove num s) :=
  ⟨hs.some, hs.few, hs.size, hs.sum, markovStep_lt hs.some _ _⟩

lemma MarkovInv.start (hs : MarkovInv s) (now : Int) (num : ℚ) : MarkovInv (markovStart now num s) := by
  rw [markovStart]
  split
  · exact (hs.clock s.time now).move num
  · exact hs

lemma markovStart_adjmap (s : MarkovModel) (now : Int) (num : ℚ) : (markovStart now num s).adjmap = s.adjmap ∧
    (markovStart now num s).numnodes = s.numnodes ∧ (markovStart now num s).adjsize = s.adjsize := by
  rw [markovStart]
  split
  · exact ⟨rfl, rfl, rfl⟩
  · exact ⟨rfl, rfl, rfl⟩

lemma callocCount_eq (h : n ≤ 46340) : callocCount n = n * n := by
  have hsquare : n * n ≤ 46340 * 46340 := Nat.mul_le_mul h h
  have hcast : (n : Int) * n = ((n * n : Nat) : Int) := (Int.natCast_mul n n).symm
  rw [callocCount, hcast, toInt32_of_lt (by omega), Int.toNat_natCast]

lemma callocCount_lt (h : 46340 < n) : callocCount n < n * n := by
  have hsquare : 46341 * 46341 ≤ n * n := Nat.mul_le_mul h h
  have hlt := toInt32_lt ((n : Int) * n)
  rw [callocCount]
  omega

lemma MarkovInv.resize (hcurrent : s.current < s.numnodes ∨ s.numnodes = 0 ∧ s.current = 0) (hn : 0 < n)
    (hfew : n ≤ 46340) (hne : n ≠ s.numnodes) : MarkovInv (markovResize n s) := by
  have hsize : callocCount n = n * n := callocCount_eq hfew
  rw [markovResize, if_pos hne]
  refine ⟨hn, hfew, ?_, fun i hi => copyadjmap_sum hi, ?_⟩
  · dsimp only
    exact hsize
  dsimp only
  split
  · omega
  split
  · exact hn
  · omega

lemma MarkovInv.setedge (hs : MarkovInv s) (x y : Int) (weight : ℚ) : MarkovInv (setedge x y weight s) := by
  rw [Vde.setedge]
  split
  · next hplace =>
    obtain ⟨hx, hxn, hy, hyn⟩ := hplace
    have hrow : x.toNat < s.numnodes := by omega
    have hcol : y.toNat < s.numnodes := by omega
    refine ⟨hs.some, hs.few, hs.size, ?_, hs.current⟩
    intro i hi
    by_cases hi' : i = x.toNat
    · rw [hi']
      exact @markovCompute_sum
        { s with adjmap := setAdjmapN s.adjmap x.toNat y.toNat s.numnodes weight } x.toNat hrow
    have hother : ∀ j ∈ range s.numnodes,
        adjmapN (markovCompute x.toNat
          { s with adjmap := setAdjmapN s.adjmap x.toNat y.toNat s.numnodes weight }).adjmap i j s.numnodes =
            adjmapN s.adjmap i j s.numnodes := by
      intro j hj
      have hjn := mem_range.mp hj
      rw [@markovCompute_of_ne { s with adjmap := setAdjmapN s.adjmap x.toNat y.toNat s.numnodes weight }
        x.toNat i j hrow hi' hjn]
      exact adjmapN_of_ne hcol hjn (fun h => hi' h.1)
    exact (congrArg List.sum (map_congr_left hother)).trans (hs.sum i hi)
  · exact hs

lemma markovResize_edges (hne : n ≠ s.numnodes) (hi : i < n) (hj : j < n) (hij : i ≠ j) :
    adjmapN (markovResize n s).adjmap i j n = edgeWeight s i j := by
  rw [markovResize, if_pos hne]
  dsimp only
  rw [copyadjmap_apply hi hj, if_neg (Ne.symm hij)]

lemma markovResize_numnodes (n : Nat) (s : MarkovModel) : (markovResize n s).numnodes = n := by
  rw [markovResize]
  split
  · rfl
  · next h => exact (not_not.mp h).symm

lemma keepsEdges_resize (x now : Int) (num : ℚ) : KeepsEdges s (.resize x now num) := by
  intro hx
  obtain ⟨hmap, hcount, -⟩ := markovStart_adjmap (markovResize x.toNat s) now num
  rw [setmarkovResize, if_pos hx, hmap, hcount]
  refine ⟨markovResize_numnodes _ _, ?_⟩
  intro i hi j hj hij
  by_cases hne : x.toNat = s.numnodes
  · rw [markovResize, if_neg (not_not.mpr hne), edgeWeight, if_pos (hne ▸ ⟨hi, hj⟩), hne]
  · exact markovResize_edges hne hi hj hij

lemma MarkovInv.eventStep (hs : MarkovInv s) {e : MarkovEvent} (he : SquareFits s e) :
    MarkovInv (markovEventStep s e) ∧ KeepsEdges s e := by
  cases e with
  | resize x now num =>
    refine ⟨?_, keepsEdges_resize x now num⟩
    rw [markovEventStep, setmarkovResize]
    have hfew : x ≤ 46340 := he
    split
    · next hpos =>
      apply MarkovInv.start
      by_cases hne : x.toNat = s.numnodes
      · rw [markovResize, if_neg (not_not.mpr hne)]
        exact hs
      · exact .resize (.inl hs.current) (by omega) (by omega) hne
    · exact hs
  | edge x y weight => exact ⟨hs.setedge x y weight, trivial⟩
  | time newvalue now num =>
    refine ⟨?_, trivial⟩
    rw [markovEventStep, setmarkovTime]
    split
    · exact (hs.clock newvalue s.next).start now num
    · exact hs
  | node x =>
    refine ⟨?_, trivial⟩
    rw [markovEventStep, setmarkovNode]
    split
    · next hx => exact ⟨hs.some, hs.few, hs.size, hs.sum, by dsimp only; omega⟩
    · exact hs
  | turn now num =>
    refine ⟨?_, trivial⟩
    rw [markovEventStep, markovTry]
    split
    · exact hs.move num
    · exact hs

lemma MarkovInv.overflow (hs : MarkovInv s) {e : MarkovEvent} (he : ¬SquareFits s e) :
    ¬MarkovRight (markovEventStep s e) := by
  cases e with
  | resize x now num =>
    have hx : 46340 < x := Int.not_le.mp he
    have hfew := hs.few
    have hne : x.toNat ≠ s.numnodes := by omega
    have hpos : 0 < x.toNat := by omega
    obtain ⟨-, hcount, hsize⟩ := markovStart_adjmap (markovResize x.toNat s) now num
    intro h
    have hlast := h.inside (x.toNat - 1)
    rw [markovEventStep, setmarkovResize, if_pos (by omega), hcount, hsize, markovResize, if_pos hne] at hlast
    dsimp only at hlast
    have hin : (x.toNat - 1) * x.toNat + (x.toNat - 1) < callocCount x.toNat :=
      hlast (Nat.sub_lt hpos Nat.one_pos) (x.toNat - 1) (Nat.sub_lt hpos Nat.one_pos)
    have hout := @callocCount_lt x.toNat (by omega)
    have hsquare : (x.toNat - 1) * x.toNat + x.toNat = x.toNat * x.toNat := by
      rw [← Nat.succ_mul, Nat.succ_eq_add_one, Nat.sub_add_cancel hpos]
    omega
  | edge x y weight => exact absurd trivial he
  | time newvalue now num => exact absurd trivial he
  | node x => exact absurd trivial he
  | turn now num => exact absurd trivial he

end

lemma markovInit_inv : MarkovInv markovInit :=
  MarkovInv.resize (.inr ⟨rfl, rfl⟩) Nat.one_pos (by decide) (by decide)

/-- In a run of commands and turns of the main loop, the rows, the current node and the kept edges are right
exactly if every resize is to so few nodes that their square is an `int`. -/
theorem markov_rows_iff (es : List MarkovEvent) : markovMachine.Always MarkovRight markovInit es ∧
    markovMachine.Along KeepsEdges markovInit es ↔ markovMachine.Along SquareFits markovInit es := by
  have henabled : markovMachine.Along markovMachine.enabled markovInit es :=
    Machine.Along.of_forall (fun _ _ => trivial) _ _
  apply Machine.always_and_along_iff MarkovInv _ _ _ markovInit_inv es henabled
  · exact fun s hs => hs.right
  · exact fun s e hs _ he => hs.eventStep he
  · exact fun s e hs _ he h => hs.overflow he h.1

theorem empty_block_for_nodes :
    callocCount 65536 = 0 ∧ ¬markovMachine.Always MarkovRight markovInit [.resize 65536 0 0] := by
  refine ⟨by decide, fun h => ?_⟩
  have hlarge : ¬SquareFits markovInit (.resize 65536 0 0) := by
    intro hfew
    have hle : (65536 : Int) ≤ 46340 := hfew
    omega
  exact markovInit_inv.overflow hlarge h.last

end Vde
