import Mathlib.Data.Finset.Card
import Vde.Events
import Vde.Lib.SwapRange

/-!
# Which registrations stay in step

The two arrays of a category agree with the pairs added and not deleted as long as no call takes
one of the paths that change the functions without their arguments. The first array has four
places, the second eight.
-/

namespace Vde

open List Function Option

def entryAt (cl : DbgCl) (i : Nat) : Nat × Nat := (cl.funs.elems i, cl.funarg.elems i)

def eventEntries (cl : DbgCl) : List (Nat × Nat) := (range cl.nfun).map (entryAt cl)

def registeredFuns (cl : DbgCl) : List Nat := (range cl.nfun).map cl.funs.elems

def HasPairs (cl : DbgCl) (ps : Finset (Nat × Nat)) : Prop :=
  (eventEntries cl).Nodup ∧ (eventEntries cl).toFinset = ps

def PairsHeld (s : EventRun) : Prop := s.fault = false ∧ Forall₂ HasPairs s.cls s.pairs

def CallsRight (calls : Option (List (Nat × Nat))) (ps : Finset (Nat × Nat)) : Prop :=
  ∃ cs, calls = some cs ∧ cs.Nodup ∧ cs.toFinset = ps

def EventCallsRight (s : EventRun) : EventCall → Prop
  | .add _ _ _ _ => True
  | .del _ _ _ => True
  | .out k => ∃ cl ps, s.cls[k]? = some cl ∧ s.pairs[k]? = some ps ∧ CallsRight (eventout cl) ps
  | .filter k len returns => ∃ cl ps, s.cls[k]? = some cl ∧ s.pairs[k]? = some ps ∧
      CallsRight ((packetfilter cl len returns).map Prod.fst) ps

/-- Adding a pair to a category: it is there already, or its function is new, is at most the
fourth, and gets its argument, from memory that has just been allocated or because the place had the
same argument before. -/
def AddOk (fn arg : Nat) (mem : EventMem) (cl : DbgCl) : Prop :=
  (fn, arg) ∈ eventEntries cl ∨ fn ∉ registeredFuns cl ∧ cl.nfun < 4 ∧
    (cl.maxfun = 0 ∧ mem.funs.isSome ∧ mem.funarg.isSome ∨
      cl.maxfun ≠ 0 ∧ cl.funarg.elems cl.nfun = arg)

/-- Deleting a pair from a category: the first entry with the function or the argument has both,
and the last entry has the same argument. -/
def DelOk (fn arg : Nat) (cl : DbgCl) : Prop :=
  ∀ i < cl.nfun, (cl.funs.elems i = fn ∨ cl.funarg.elems i = arg) →
    (∀ j < i, cl.funs.elems j ≠ fn ∧ cl.funarg.elems j ≠ arg) →
    cl.funs.elems i = fn ∧ cl.funarg.elems i = arg ∧ cl.funarg.elems (cl.nfun - 1) = arg

def PacketPasses (len : Int) (returns : Nat → Int) (cl : DbgCl) : Prop :=
  cl.nfun = 0 ∨ 0 < len ∧ ∀ j, j + 1 < cl.nfun → 0 ≤ returns j

/-- Each category that an add or a delete is for, and the one whose event happens, is as it has to
be. -/
def EventOk (s : EventRun) : EventCall → Prop
  | .add fn path arg mem => ∀ k cl, s.cls[k]? = some cl → path.isPrefixOf cl.path → AddOk fn arg (mem k) cl
  | .del fn path arg => ∀ cl ∈ s.cls, path.isPrefixOf cl.path → DelOk fn arg cl
  | .out _ => True
  | .filter k len returns => ∀ cl, s.cls[k]? = some cl → PacketPasses len returns cl

structure CatInv (cl : DbgCl) (ps : Finset (Nat × Nat)) : Prop where
  pairs : HasPairs cl ps
  funs : (registeredFuns cl).Nodup
  few : cl.nfun ≤ 4
  arrays : cl.maxfun = 0 ∧ cl.nfun = 0 ∨ cl.maxfun = 8 ∧ cl.funs.size = 4 ∧ cl.funarg.size = 8

/-! ## The loops -/

lemma searchFrom_eq {stop : Nat → Option Bool} {test : Nat → Bool} {left i : Nat}
    (h : ∀ k, i ≤ k → k < i + left → stop k = some (test k)) : ∃ r, searchFrom stop left i = some r ∧ i ≤ r ∧
    r ≤ i + left ∧ (∀ k, i ≤ k → k < r → test k = false) ∧ (r < i + left → test r = true) := by
  induction left generalizing i with
  | zero => exact ⟨i, rfl, Nat.le_refl i, Nat.le_refl i, fun k hk hk' => by omega, fun hlt => by omega⟩
  | succ left ih =>
    rw [searchFrom, h i (Nat.le_refl i) (by omega), bind_eq_bind, bind_some]
    by_cases hi : test i = true
    · rw [if_pos hi]
      exact ⟨i, rfl, Nat.le_refl i, by omega, fun k hk hk' => by omega, fun _ => hi⟩
    rw [if_neg hi]
    obtain ⟨r, hr, hle, hle', hbefore, hat⟩ := @ih (i + 1) (fun k hk hk' => h k (by omega) (by omega))
    refine ⟨r, hr, by omega, by omega, ?_, ?_⟩
    · intro k hk hkr
      by_cases hki : k = i
      · rw [hki]
        exact Bool.eq_false_iff.mpr hi
      · exact hbefore k (by omega) hkr
    intro hlt
    exact hat (by omega)

variable {i fn arg : Nat} {p : Nat × Nat} {mem : EventMem} {rv r : EventResult} {cl' : DbgCl}

section

variable {cl : DbgCl} {ps : Finset (Nat × Nat)}

lemma CatInv.inside (h : CatInv cl ps) (hi : i < cl.nfun) :
    i < cl.funs.size ∧ i < cl.funarg.size ∧ cl.maxfun = 8 := by
  have hfew := h.few
  rcases h.arrays with ⟨hmax, hn⟩ | ⟨hmax, hfuns, hargs⟩
  · omega
  · omega

lemma CatInv.registeredAt (h : CatInv cl ps) (hi : i < cl.nfun) : registeredAt cl i = some (entryAt cl i) := by
  obtain ⟨hfuns, hargs, -⟩ := h.inside hi
  rw [Vde.registeredAt, Block.load, if_pos hfuns, Block.load, if_pos hargs]
  rfl

lemma CatInv.callsFrom (h : CatInv cl ps) {left : Nat} (hi : i + left ≤ cl.nfun) :
    callsFrom cl left i = some ((range' i left).map (entryAt cl)) := by
  induction left generalizing i with
  | zero => rfl
  | succ left ih =>
    rw [Vde.callsFrom, h.registeredAt (by omega), @ih (i + 1) (by omega), range'_succ]
    rfl

lemma CatInv.eventout (h : CatInv cl ps) : eventout cl = some (eventEntries cl) := by
  rw [Vde.eventout, h.callsFrom (by omega), eventEntries, range_eq_range']

lemma CatInv.filterFrom (h : CatInv cl ps) (returns : Nat → Int) {left i : Nat} {len : Int}
    (hi : i + left ≤ cl.nfun) : ∃ n r, filterFrom cl returns left i len = some ((range' i n).map (entryAt cl), r) ∧
    n ≤ left ∧ (n = left ↔ left = 0 ∨ 0 < len ∧ ∀ j, i ≤ j → j + 1 < i + left → 0 ≤ returns j) := by
  induction left generalizing i len with
  | zero => exact ⟨0, len, rfl, Nat.le_refl 0, by simp⟩
  | succ left ih =>
    rw [Vde.filterFrom]
    by_cases hlen : 0 < len
    · obtain ⟨n, r, hr, hn, hall⟩ := @ih (i + 1) (if returns i ≠ 0 then returns i else len) (by omega)
      rw [if_pos hlen, h.registeredAt (by omega), hr]
      refine ⟨n + 1, r, ?_, by omega, ?_⟩
      · rw [range'_succ]
        rfl
      rw [Nat.add_right_cancel_iff, hall]
      constructor
      · intro hcase
        refine Or.inr ⟨hlen, fun j hj hj' => ?_⟩
        cases hcase with
        | inl hzero => omega
        | inr hrest =>
          by_cases hji : j = i
          · have hpos := hrest.1
            rw [hji]
            by_cases hzero : returns i = 0
            · exact Int.le_of_eq hzero.symm
            rw [if_pos hzero] at hpos
            exact Int.le_of_lt hpos
          · exact hrest.2 j (by omega) (by omega)
      intro hcase
      by_cases hleft : left = 0
      · exact Or.inl hleft
      right
      have hrest := hcase.resolve_left (by omega)
      have hi0 := hrest.2 i (Nat.le_refl i) (by omega)
      refine ⟨?_, fun j hj hj' => hrest.2 j (by omega) (by omega)⟩
      by_cases hzero : returns i = 0
      · rw [if_neg (not_not.mpr hzero)]
        exact hlen
      rw [if_pos hzero]
      omega
    · rw [if_neg hlen]
      refine ⟨0, len, rfl, Nat.zero_le _, ?_⟩
      constructor
      · intro habs
        omega
      intro hcase
      exact absurd (hcase.resolve_left (by omega)).1 hlen

lemma CatInv.packetfilter_iff (h : CatInv cl ps) (len : Int) (returns : Nat → Int) :
    CallsRight ((packetfilter cl len returns).map Prod.fst) ps ↔ PacketPasses len returns cl := by
  obtain ⟨n, r, hr, hn, hall⟩ := @CatInv.filterFrom cl ps h returns cl.nfun 0 len (by omega)
  have hcalls : (packetfilter cl len returns).map Prod.fst = some ((range' 0 n).map (entryAt cl)) := by
    rw [packetfilter, hr]
    rfl
  have hok : n = cl.nfun ↔ PacketPasses len returns cl := by
    rw [hall, PacketPasses, Nat.zero_add]
    simp only [Nat.zero_le, true_implies]
  rw [CallsRight, hcalls, ← hok]
  obtain ⟨hnodup, hset⟩ := h.pairs
  constructor
  · rintro ⟨cs, hcs, hnodup', hset'⟩
    rw [← some.inj hcs] at hnodup' hset'
    have hcard := congrArg Finset.card (hset'.trans hset.symm)
    rw [toFinset_card_of_nodup hnodup', toFinset_card_of_nodup hnodup, eventEntries,
      length_map, length_map, length_range, length_range'] at hcard
    exact hcard
  intro he
  refine ⟨_, rfl, ?_, ?_⟩
  · rw [he, ← range_eq_range']
    exact hnodup
  rw [he, ← range_eq_range']
  exact hset

/-! ## Adding a function -/

lemma mem_registeredFuns : fn ∈ registeredFuns cl ↔ ∃ i < cl.nfun, cl.funs.elems i = fn := by
  simp only [registeredFuns, List.mem_map, mem_range]

lemma mem_eventEntries : p ∈ eventEntries cl ↔ ∃ i < cl.nfun, entryAt cl i = p := by
  simp only [eventEntries, List.mem_map, mem_range]

lemma fst_mem_registeredFuns (h : p ∈ eventEntries cl) : p.1 ∈ registeredFuns cl := by
  obtain ⟨i, hi, rfl⟩ := mem_eventEntries.mp h
  exact mem_registeredFuns.mpr ⟨i, hi, rfl⟩

lemma HasPairs.mem_iff (h : HasPairs cl ps) : p ∈ ps ↔ p ∈ eventEntries cl := by
  rw [← h.2, List.mem_toFinset]

lemma CatInv.search_add (h : CatInv cl ps) (fn : Nat) : ∃ i,
    searchFrom (fun i => (cl.funs.load i).map (· == fn)) cl.nfun 0 = some i ∧ i ≤ cl.nfun ∧
    (fn ∈ registeredFuns cl ↔ i < cl.nfun) := by
  obtain ⟨i, hi, -, hle, hbefore, hat⟩ := @searchFrom_eq (fun i => (cl.funs.load i).map (· == fn))
    (fun i => cl.funs.elems i == fn) cl.nfun 0 (by
      intro k _ hk
      rw [Block.load, if_pos (h.inside (by omega)).1]
      rfl)
  rw [Nat.zero_add] at hle hat
  refine ⟨i, hi, hle, ?_⟩
  rw [mem_registeredFuns]
  constructor
  · rintro ⟨k, hk, hkf⟩
    by_contra hge
    have hno := hbefore k (Nat.zero_le k) (by omega)
    rw [hkf, beq_self_eq_true] at hno
    exact absurd hno (by decide)
  intro hlt
  exact ⟨i, hlt, beq_iff_eq.mp (hat hlt)⟩

lemma CatInv.append (h : CatInv cl ps) {fn arg : Nat} (hfn : fn ∉ registeredFuns cl) {cl' : DbgCl}
    (hn : cl'.nfun = cl.nfun + 1) (hold : ∀ i < cl.nfun, entryAt cl' i = entryAt cl i)
    (hnew : entryAt cl' cl.nfun = (fn, arg)) : HasPairs cl' (insert (fn, arg) ps) ∧ (registeredFuns cl').Nodup := by
  have hentries : eventEntries cl' = eventEntries cl ++ [(fn, arg)] := by
    rw [eventEntries, hn, range_succ, map_append, map_singleton, hnew, eventEntries]
    congr 1
    apply map_congr_left
    intro i hi
    exact hold i (mem_range.mp hi)
  have hfuns : registeredFuns cl' = registeredFuns cl ++ [fn] := by
    rw [registeredFuns, hn, range_succ, map_append, map_singleton, registeredFuns]
    congr 1
    · apply map_congr_left
      intro i hi
      exact congrArg Prod.fst (hold i (mem_range.mp hi))
    · exact congrArg (fun p => [p.1]) hnew
  obtain ⟨hnodup, hset⟩ := h.pairs
  refine ⟨⟨?_, ?_⟩, ?_⟩
  · rw [hentries, ← concat_eq_append]
    exact hnodup.concat (fun hmem => hfn (fst_mem_registeredFuns hmem))
  · rw [hentries, toFinset_append, hset, Finset.union_comm]
    rfl
  rw [hfuns, ← concat_eq_append]
  exact h.funs.concat hfn

lemma CatInv.addFun_known (h : CatInv cl ps) (arg : Nat) (mem : EventMem) (rv : EventResult)
    (hfn : fn ∈ registeredFuns cl) : ∃ r, addFun fn arg mem rv cl = some (r, cl) := by
  obtain ⟨i, hi, -, hmem⟩ := h.search_add fn
  have hlt := hmem.mp hfn
  rw [addFun, hi, bind_eq_bind, bind_some, if_neg (Nat.not_le.mpr hlt)]
  exact ⟨_, rfl⟩

lemma CatInv.search_new (h : CatInv cl ps) (hfn : fn ∉ registeredFuns cl) :
    searchFrom (fun i => (cl.funs.load i).map (· == fn)) cl.nfun 0 = some cl.nfun := by
  obtain ⟨i, hi, hle, hmem⟩ := h.search_add fn
  have hge : ¬i < cl.nfun := fun hlt => hfn (hmem.mpr hlt)
  rw [hi, show i = cl.nfun by omega]

lemma CatInv.addFun_first (h : CatInv cl ps) (rv : EventResult)
    (hmax : cl.maxfun = 0) (hfuns : mem.funs.isSome) (hargs : mem.funarg.isSome) :
    ∃ r cl', addFun fn arg mem rv cl = some (r, cl') ∧ CatInv cl' (insert (fn, arg) ps) := by
  have hn : cl.nfun = 0 := by
    have harrays := h.arrays
    omega
  have hfn : fn ∉ registeredFuns cl := by
    rw [registeredFuns, hn]
    exact not_mem_nil
  obtain ⟨f, hf⟩ := isSome_iff_exists.mp hfuns
  obtain ⟨a, ha⟩ := isSome_iff_exists.mp hargs
  obtain ⟨funs, hfs, hfsize, hfn0, -⟩ := @Block.exists_store _ (cl.funs.realloc 4 f) 0 fn (Nat.succ_pos 3)
  obtain ⟨funarg, has, hasize, harg0, -⟩ := @Block.exists_store _ (cl.funarg.realloc 8 a) 0 arg (Nat.succ_pos 7)
  have hadd : ∃ r, addFun fn arg mem rv cl =
      some (r, { cl with funs := funs, funarg := funarg, nfun := 1, maxfun := 8 }) := by
    rw [addFun, h.search_new hfn, bind_eq_bind, bind_some, if_pos le_rfl, hmax, hn,
      if_pos (Nat.le_refl 0), if_pos (And.intro hfuns hargs), hf, ha]
    change ∃ r, (((cl.funs.realloc 4 f).store 0 fn).bind fun funs =>
      ((cl.funarg.realloc 8 a).store 0 arg).bind _) = some (r, _)
    rw [hfs, bind_some, has, bind_some]
    exact ⟨_, rfl⟩
  obtain ⟨r, hadd⟩ := hadd
  refine ⟨r, _, hadd, ?_⟩
  obtain ⟨hpairs, hdistinct⟩ := @CatInv.append cl ps h fn arg hfn
    { cl with funs := funs, funarg := funarg, nfun := 1, maxfun := 8 } (by rw [hn])
    (fun i hi => absurd hi (by omega)) (by rw [hn, entryAt, hfn0, harg0])
  refine ⟨hpairs, hdistinct, ?_, Or.inr ⟨rfl, ?_, ?_⟩⟩
  · exact (by decide : 1 ≤ 4)
  · exact hfsize
  · exact hasize

lemma CatInv.addFun_enomem (h : CatInv cl ps) (hmax : cl.maxfun = 0) (hmem : ¬(mem.funs.isSome ∧ mem.funarg.isSome))
    (hadd : addFun fn arg mem rv cl = some (r, cl')) : eventEntries cl' = [] := by
  have hn : cl.nfun = 0 := by
    have harrays := h.arrays
    omega
  have hfn : fn ∉ registeredFuns cl := by
    rw [registeredFuns, hn]
    exact not_mem_nil
  rw [addFun, h.search_new hfn, bind_eq_bind, bind_some, if_pos le_rfl, hmax, hn,
    if_pos (Nat.le_refl 0), if_neg hmem, some.injEq, Prod.mk.injEq] at hadd
  rw [← hadd.2]
  rfl

lemma CatInv.addFun_reuse (h : CatInv cl ps) {fn arg : Nat} {mem : EventMem} (rv : EventResult)
    (hfn : fn ∉ registeredFuns cl) (hmax : cl.maxfun ≠ 0) :
    ∃ r, addFun fn arg mem rv cl = (cl.funs.store cl.nfun fn).bind fun funs =>
      some (r, { cl with funs := funs, nfun := cl.nfun + 1 }) := by
  have hfew := h.few
  have hroom : ¬cl.maxfun ≤ cl.nfun := by
    have harrays := h.arrays
    omega
  have hshort : toUShort (cl.nfun + 1) = cl.nfun + 1 := by
    rw [toUShort]
    omega
  rw [addFun, h.search_new hfn, bind_eq_bind, bind_some, if_pos le_rfl,
    if_neg hroom, hshort]
  exact ⟨_, rfl⟩

lemma CatInv.add (h : CatInv cl ps) (rv : EventResult) (hok : AddOk fn arg mem cl) :
    ∃ r cl', addFun fn arg mem rv cl = some (r, cl') ∧ CatInv cl' (insert (fn, arg) ps) := by
  cases hok with
  | inl hmem =>
    obtain ⟨r, hr⟩ := h.addFun_known arg mem rv (fst_mem_registeredFuns hmem)
    rw [Finset.insert_eq_of_mem (h.pairs.mem_iff.mpr hmem)]
    exact ⟨r, cl, hr, h⟩
  | inr hnew =>
    obtain ⟨hfn, hfew, hcase⟩ := hnew
    rcases hcase with ⟨hmax, hfuns, hargs⟩ | ⟨hmax, harg⟩
    · exact h.addFun_first rv hmax hfuns hargs
    obtain ⟨hmax8, hfsize, hasize⟩ := h.arrays.resolve_left (fun hzero => hmax hzero.1)
    obtain ⟨funs, hstore, hsize, hself, hother⟩ := @Block.exists_store _ cl.funs cl.nfun fn (by omega)
    obtain ⟨r, hr⟩ := @CatInv.addFun_reuse cl ps h fn arg mem rv hfn hmax
    refine ⟨r, { cl with funs := funs, nfun := cl.nfun + 1 }, ?_, ?_⟩
    · rw [hr, hstore, bind_some]
    obtain ⟨hpairs, hdistinct⟩ := @CatInv.append cl ps h fn arg hfn
      { cl with funs := funs, nfun := cl.nfun + 1 } rfl
      (fun i hi => by rw [entryAt, entryAt, hother i (by omega)])
      (by rw [entryAt, hself, harg])
    refine ⟨hpairs, hdistinct, ?_, Or.inr ⟨hmax8, ?_, hasize⟩⟩
    · exact hfew
    · exact hsize.trans hfsize

lemma CatInv.add_only (h : CatInv cl ps) (hadd : addFun fn arg mem rv cl = some (r, cl'))
    (hpairs : HasPairs cl' (insert (fn, arg) ps)) : AddOk fn arg mem cl := by
  have hmem : (fn, arg) ∈ eventEntries cl' := hpairs.mem_iff.mp (Finset.mem_insert_self _ _)
  by_cases hfn : fn ∈ registeredFuns cl
  · obtain ⟨r', hr'⟩ := h.addFun_known arg mem rv hfn
    rw [hr', some.injEq, Prod.mk.injEq] at hadd
    rw [← hadd.2] at hmem
    exact Or.inl hmem
  right
  by_cases hmax : cl.maxfun = 0
  · have hn : cl.nfun < 4 := by
      have harrays := h.arrays
      omega
    by_cases hboth : mem.funs.isSome ∧ mem.funarg.isSome
    · exact ⟨hfn, hn, Or.inl ⟨hmax, hboth⟩⟩
    rw [h.addFun_enomem hmax hboth hadd] at hmem
    exact absurd hmem not_mem_nil
  obtain ⟨-, hfsize, -⟩ := h.arrays.resolve_left (fun hzero => hmax hzero.1)
  obtain ⟨r', hr'⟩ := @CatInv.addFun_reuse cl ps h fn arg mem rv hfn hmax
  rw [hr'] at hadd
  obtain ⟨funs, hstore, hadd⟩ := bind_eq_some_iff.mp hadd
  obtain ⟨hlt, rfl⟩ := Block.store_eq_some.mp hstore
  rw [some.injEq, Prod.mk.injEq] at hadd
  refine ⟨hfn, by omega, Or.inr ⟨hmax, ?_⟩⟩
  obtain ⟨i, hi, hentry⟩ := mem_eventEntries.mp hmem
  rw [← hadd.2] at hi hentry
  replace hi : i < cl.nfun + 1 := hi
  rw [entryAt, Prod.mk.injEq] at hentry
  by_cases hin : i = cl.nfun
  · rw [← hin]
    exact hentry.2
  have hold := hentry.1
  dsimp only at hold
  rw [update_of_ne hin] at hold
  exact absurd (mem_registeredFuns.mpr ⟨i, by omega, hold⟩) hfn

/-! ## Deleting a function -/

def movedLast (cl : DbgCl) (i : Nat) : DbgCl :=
  { cl with
    funs := { cl.funs with elems := update cl.funs.elems i (cl.funs.elems (cl.nfun - 1)) }
    nfun := cl.nfun - 1 }

lemma entryAt_movedLast (i k : Nat) : entryAt (movedLast cl i) k =
    (update cl.funs.elems i (cl.funs.elems (cl.nfun - 1)) k, cl.funarg.elems k) := rfl

lemma CatInv.delFun_eq (h : CatInv cl ps) (fn arg : Nat) (rv : EventResult) : ∃ i r, delFun fn arg rv cl =
    some (r, if i < cl.nfun then movedLast cl i else cl) ∧ i ≤ cl.nfun ∧
    (∀ j < i, cl.funs.elems j ≠ fn ∧ cl.funarg.elems j ≠ arg) ∧
    (i < cl.nfun → cl.funs.elems i = fn ∨ cl.funarg.elems i = arg) := by
  obtain ⟨i, hi, -, hle, hbefore, hat⟩ := @searchFrom_eq
    (fun i => do
      let f ← cl.funs.load i
      if f ≠ fn then
        let a ← cl.funarg.load i
        some (a == arg)
      else some true)
    (fun i => cl.funs.elems i == fn || cl.funarg.elems i == arg) cl.nfun 0 (by
      intro k _ hk
      obtain ⟨hfuns, hargs, -⟩ := h.inside (show k < cl.nfun by omega)
      rw [Block.load, if_pos hfuns, Block.load, if_pos hargs, bind_eq_bind, bind_some]
      by_cases hf : cl.funs.elems k = fn
      · rw [if_neg (not_not.mpr hf), hf, beq_self_eq_true, Bool.true_or]
      · rw [if_pos hf, beq_eq_false_iff_ne.mpr hf, Bool.false_or, bind_some])
  rw [Nat.zero_add] at hle hat
  have hfirst : ∀ j < i, cl.funs.elems j ≠ fn ∧ cl.funarg.elems j ≠ arg := by
    intro j hj
    have hno := hbefore j (Nat.zero_le j) hj
    rw [Bool.or_eq_false_iff] at hno
    exact ⟨beq_eq_false_iff_ne.mp hno.1, beq_eq_false_iff_ne.mp hno.2⟩
  have hmatch : i < cl.nfun → cl.funs.elems i = fn ∨ cl.funarg.elems i = arg := by
    intro hlt
    have hyes := hat hlt
    rw [Bool.or_eq_true, beq_iff_eq, beq_iff_eq] at hyes
    exact hyes
  rw [delFun, hi, bind_eq_bind, bind_some]
  by_cases hlt : i < cl.nfun
  · rw [if_pos hlt, Block.load, if_pos (h.inside (by omega)).1, bind_some, Block.store,
      if_pos (h.inside hlt).1]
    exact ⟨i, .ok, by rw [if_pos hlt]; rfl, hle, hfirst, hmatch⟩
  rw [if_neg hlt]
  exact ⟨i, _, by rw [if_neg hlt], hle, hfirst, hmatch⟩

lemma registeredFuns_movedLast (hi : i < cl.nfun) :
    (registeredFuns cl).Perm (cl.funs.elems i :: registeredFuns (movedLast cl i)) := by
  have hperm := range_move_last cl.funs.elems (show i ≤ cl.nfun - 1 by omega)
  rw [show cl.nfun - 1 + 1 = cl.nfun by omega] at hperm
  exact hperm

lemma CatInv.movedLast_funs (h : CatInv cl ps) (hi : i < cl.nfun) :
    cl.funs.elems i ∉ registeredFuns (movedLast cl i) ∧ (registeredFuns (movedLast cl i)).Nodup :=
  nodup_cons.mp ((registeredFuns_movedLast hi).nodup_iff.mp h.funs)

lemma eventEntries_movedLast (hi : i < cl.nfun) (harg : cl.funarg.elems (cl.nfun - 1) = cl.funarg.elems i) :
    (eventEntries cl).Perm (entryAt cl i :: eventEntries (movedLast cl i)) := by
  have hperm := range_move_last (entryAt cl) (show i ≤ cl.nfun - 1 by omega)
  rw [show cl.nfun - 1 + 1 = cl.nfun by omega] at hperm
  have hmoved : (range (cl.nfun - 1)).map
      (update (entryAt cl) i (entryAt cl (cl.nfun - 1))) = eventEntries (movedLast cl i) := by
    rw [eventEntries]
    apply map_congr_left
    intro k _
    by_cases hki : k = i
    · rw [entryAt_movedLast, hki, update_self, update_self, entryAt, harg]
    · rw [entryAt_movedLast, update_of_ne hki, update_of_ne hki, entryAt]
  rw [hmoved] at hperm
  exact hperm

lemma CatInv.del (h : CatInv cl ps) (rv : EventResult) (hok : DelOk fn arg cl) :
    ∃ r cl', delFun fn arg rv cl = some (r, cl') ∧ CatInv cl' (ps.erase (fn, arg)) := by
  obtain ⟨i, r, hr, -, hfirst, hmatch⟩ := h.delFun_eq fn arg rv
  by_cases hi : i < cl.nfun
  · rw [if_pos hi] at hr
    obtain ⟨hfn, harg, hlast⟩ := hok i hi (hmatch hi) hfirst
    have hentry : entryAt cl i = (fn, arg) := by rw [entryAt, hfn, harg]
    have hperm := eventEntries_movedLast hi (hlast.trans harg.symm)
    rw [hentry] at hperm
    obtain ⟨hnodup, hset⟩ := h.pairs
    obtain ⟨hnew, hrest⟩ := nodup_cons.mp (hperm.nodup_iff.mp hnodup)
    refine ⟨r, _, hr, ⟨hrest, ?_⟩, (h.movedLast_funs hi).2, ?_, ?_⟩
    · rw [← hset, toFinset_eq_of_perm _ _ hperm, toFinset_cons, Finset.erase_insert]
      exact fun hmem => hnew (mem_toFinset.mp hmem)
    · have hfew := h.few
      exact (show cl.nfun - 1 ≤ 4 by omega)
    · exact h.arrays.imp (fun hzero => ⟨hzero.1, by omega⟩) id
  rw [if_neg hi] at hr
  have habsent : (fn, arg) ∉ ps := by
    intro hmem
    obtain ⟨k, hk, hentry⟩ := mem_eventEntries.mp (h.pairs.mem_iff.mp hmem)
    exact (hfirst k (by omega)).1 (congrArg Prod.fst hentry)
  rw [Finset.erase_eq_of_notMem habsent]
  exact ⟨r, cl, hr, h⟩

lemma CatInv.del_only (h : CatInv cl ps) (hdel : delFun fn arg rv cl = some (r, cl'))
    (hpairs : HasPairs cl' (ps.erase (fn, arg))) : DelOk fn arg cl := by
  obtain ⟨i, r', hr', -, hfirst, hmatch⟩ := h.delFun_eq fn arg rv
  rw [hr', some.injEq, Prod.mk.injEq] at hdel
  intro i' hi' hmatch' hfirst'
  -- both are the first match
  have hlt : i < cl.nfun := by
    by_contra hge
    have hno := hfirst i' (by omega)
    exact hmatch'.elim hno.1 hno.2
  obtain rfl : i' = i := by
    by_contra hne
    rcases Nat.lt_or_gt_of_ne hne with hlt' | hgt
    · have hno := hfirst i' hlt'
      exact hmatch'.elim hno.1 hno.2
    have hno := hfirst' i hgt
    exact (hmatch hlt).elim hno.1 hno.2
  rw [if_pos hlt] at hdel
  rw [← hdel.2] at hpairs
  obtain ⟨hgone, -⟩ := h.movedLast_funs hlt
  have hentry : entryAt cl i' = (fn, arg) := by
    by_contra hne
    have hmem : entryAt cl i' ∈ ps := h.pairs.mem_iff.mpr (mem_eventEntries.mpr ⟨i', hlt, rfl⟩)
    have hkept := hpairs.mem_iff.mp (Finset.mem_erase.mpr ⟨hne, hmem⟩)
    exact hgone (fst_mem_registeredFuns hkept)
  rw [entryAt, Prod.mk.injEq] at hentry
  refine ⟨hentry.1, hentry.2, ?_⟩
  by_cases hlast : i' = cl.nfun - 1
  · rw [← hlast]
    exact hentry.2
  -- the last function stands beside the argument of the deleted one
  have hmoved : (cl.funs.elems (cl.nfun - 1), arg) ∈ eventEntries (movedLast cl i') := by
    have hself : entryAt (movedLast cl i') i' = (cl.funs.elems (cl.nfun - 1), arg) := by
      rw [entryAt_movedLast, update_self, hentry.2]
    have hin : i' < (movedLast cl i').nfun := (show i' < cl.nfun - 1 by omega)
    exact mem_eventEntries.mpr ⟨i', hin, hself⟩
  have hold := Finset.mem_of_mem_erase (hpairs.mem_iff.mpr hmoved)
  obtain ⟨k, hk, hkentry⟩ := mem_eventEntries.mp (h.pairs.mem_iff.mp hold)
  rw [entryAt, Prod.mk.injEq] at hkentry
  have hkl : k = cl.nfun - 1 := by
    have hinj := inj_on_of_nodup_map h.funs (mem_range.mpr hk)
      (mem_range.mpr (show cl.nfun - 1 < cl.nfun by omega))
    exact hinj hkentry.1
  rw [← hkl]
  exact hkentry.2

end

/-! ## All categories -/

section

variable {path : List UInt8} {body : Nat → EventResult → DbgCl → Option (EventResult × DbgCl)}
  {change : Finset (Nat × Nat) → Finset (Nat × Nat)} {ok : Nat → DbgCl → Prop} {cls : List DbgCl}
  {pairs : List (Finset (Nat × Nat))}

lemma forPath_ok
    (hbody : ∀ k rv cl ps, CatInv cl ps → ok k cl → ∃ r cl', body k rv cl = some (r, cl') ∧ CatInv cl' (change ps))
    (h : Forall₂ CatInv cls pairs) (k : Nat) (rv : EventResult)
    (hall : ∀ j cl, cls[j]? = some cl → path.isPrefixOf cl.path → ok (k + j) cl) : ∃ r cls',
    forPath path body k rv cls = some (r, cls') ∧ Forall₂ CatInv cls' (changePairs path change cls pairs) := by
  induction h generalizing k rv with
  | nil => exact ⟨rv, [], rfl, Forall₂.nil⟩
  | @cons cl ps cls pairs hcat hrest ih =>
    have hstep : ∃ r cl', ifPath path (body k) rv cl = some (r, cl') ∧
        CatInv cl' (if path.isPrefixOf cl.path then change ps else ps) := by
      rw [ifPath]
      by_cases hp : path.isPrefixOf cl.path = true
      · rw [if_pos hp, if_pos hp]
        exact hbody k rv cl ps hcat (hall 0 cl rfl hp)
      rw [if_neg hp, if_neg hp]
      exact ⟨rv, cl, rfl, hcat⟩
    obtain ⟨r, cl', hr, hcat'⟩ := hstep
    obtain ⟨r', cls', hr', hrest'⟩ := ih (k + 1) r (by
      intro j c hj hp
      have hok := hall (j + 1) c hj hp
      rwa [Nat.add_assoc, Nat.add_comm 1 j])
    refine ⟨r', cl' :: cls', ?_, Forall₂.cons hcat' hrest'⟩
    rw [forPath, hr, bind_eq_bind, bind_some, hr', bind_eq_bind, bind_some]

lemma forPath_only
    (hbody : ∀ k rv cl ps r cl', CatInv cl ps → body k rv cl = some (r, cl') → HasPairs cl' (change ps) → ok k cl)
    (h : Forall₂ CatInv cls pairs) {k : Nat} {rv r : EventResult} {cls' : List DbgCl}
    (hdone : forPath path body k rv cls = some (r, cls'))
    (hpairs : Forall₂ HasPairs cls' (changePairs path change cls pairs)) :
    ∀ j cl, cls[j]? = some cl → path.isPrefixOf cl.path → ok (k + j) cl := by
  induction h generalizing k rv r cls' with
  | nil =>
    intro j cl hj
    exact absurd hj (by simp)
  | @cons cl ps cls pairs hcat hrest ih =>
    rw [forPath] at hdone
    obtain ⟨⟨r1, cl1⟩, hfirst, hdone⟩ := bind_eq_some_iff.mp hdone
    obtain ⟨⟨r2, cls2⟩, hsecond, hdone⟩ := bind_eq_some_iff.mp hdone
    rw [some.injEq, Prod.mk.injEq] at hdone
    rw [← hdone.2] at hpairs
    obtain ⟨hhead, htail⟩ := forall₂_cons.mp hpairs
    intro j c hj hp
    cases j with
    | zero =>
      obtain rfl := some.inj hj
      rw [ifPath, if_pos hp] at hfirst
      dsimp only at hhead
      rw [if_pos hp] at hhead
      exact hbody k rv cl ps r1 cl1 hcat hfirst hhead
    | succ j =>
      have hok := ih hsecond htail j c hj hp
      rwa [Nat.add_assoc, Nat.add_comm 1 j] at hok

end

structure EventInv (s : EventRun) : Prop where
  running : s.fault = false
  cats : Forall₂ CatInv s.cls s.pairs

lemma EventInv.held {s : EventRun} (h : EventInv s) : PairsHeld s :=
  ⟨h.running, h.cats.imp (fun _ _ hcat => hcat.pairs)⟩

lemma EventInv.init (paths : List (List UInt8)) : EventInv (eventInit paths) := by
  refine ⟨rfl, ?_⟩
  rw [eventInit]
  induction paths with
  | nil => exact Forall₂.nil
  | cons path paths ih =>
    refine Forall₂.cons ?_ ih
    exact ⟨⟨nodup_nil, rfl⟩, nodup_nil, Nat.zero_le 4, Or.inl ⟨rfl, rfl⟩⟩

section

variable {s : EventRun}

lemma EventInv.done (h : EventInv s) {pairs : List (Finset (Nat × Nat))} {cls : List DbgCl}
    (hcats : Forall₂ CatInv cls pairs) :
    EventInv (eventDone s pairs (some (r, cls))) := ⟨h.running, hcats⟩

lemma PairsHeld.of_done {pairs : List (Finset (Nat × Nat))} {r : Option (EventResult × List DbgCl)}
    (h : PairsHeld (eventDone s pairs r)) : ∃ rv cls, r = some (rv, cls) ∧ Forall₂ HasPairs cls pairs := by
  cases r with
  | none =>
    have htrue : true = false := h.1
    exact absurd htrue (by decide)
  | some r => exact ⟨r.1, r.2, rfl, h.2⟩

lemma EventInv.at (h : EventInv s) {k : Nat} (hk : k < s.cls.length) :
    ∃ cl ps, s.cls[k]? = some cl ∧ s.pairs[k]? = some ps ∧ CatInv cl ps := by
  have hlen := h.cats.length_eq
  refine ⟨s.cls[k], s.pairs[k], getElem?_eq_getElem hk, getElem?_eq_getElem (by omega), ?_⟩
  exact (forall₂_iff_get.mp h.cats).2 k hk (by omega)

lemma EventInv.step (h : EventInv s) (e : EventCall) (he : eventEnabled s e) (hok : EventOk s e) :
    EventInv (eventStep s e) ∧ EventCallsRight s e := by
  cases e with
  | add fn path arg mem =>
    obtain ⟨r, cls, hr, hcats⟩ := @forPath_ok path (fun k => addFun fn arg (mem k)) (insert (fn, arg))
      (fun k => AddOk fn arg (mem k)) s.cls s.pairs (fun k rv cl ps hcat hgood => hcat.add rv hgood)
      h.cats 0 .einval (fun j cl hj hp => by rw [Nat.zero_add]; exact hok j cl hj hp)
    rw [eventStep, eventadd, hr]
    exact ⟨h.done hcats, trivial⟩
  | del fn path arg =>
    obtain ⟨r, cls, hr, hcats⟩ := @forPath_ok path (fun _ => delFun fn arg)
      (fun ps => ps.erase (fn, arg)) (fun _ => DelOk fn arg) s.cls s.pairs
      (fun k rv cl ps hcat hgood => hcat.del rv hgood)
      h.cats 0 .einval (fun j cl hj hp => hok cl (mem_of_getElem? hj) hp)
    rw [eventStep, eventdel, hr]
    exact ⟨h.done hcats, trivial⟩
  | out k =>
    obtain ⟨cl, ps, hcl, hps, hcat⟩ := h.at he
    exact ⟨h, cl, ps, hcl, hps, eventEntries cl, hcat.eventout, hcat.pairs⟩
  | filter k len returns =>
    obtain ⟨cl, ps, hcl, hps, hcat⟩ := h.at he
    exact ⟨h, cl, ps, hcl, hps, (hcat.packetfilter_iff len returns).mpr (hok cl hcl)⟩

lemma EventInv.step_only (h : EventInv s) (e : EventCall) (hheld : PairsHeld (eventStep s e))
    (hcalls : EventCallsRight s e) (he : eventEnabled s e) : EventOk s e := by
  cases e with
  | add fn path arg mem =>
    obtain ⟨r, cls, hr, hpairs⟩ := PairsHeld.of_done hheld
    have hall := @forPath_only path (fun k => addFun fn arg (mem k)) (insert (fn, arg))
      (fun k => AddOk fn arg (mem k)) s.cls s.pairs
      (fun k rv cl ps r cl' hcat hadd hright => hcat.add_only hadd hright) h.cats 0 .einval r cls hr hpairs
    intro k cl hk hp
    have hgood := hall k cl hk hp
    rwa [Nat.zero_add] at hgood
  | del fn path arg =>
    obtain ⟨r, cls, hr, hpairs⟩ := PairsHeld.of_done hheld
    have hall := @forPath_only path (fun _ => delFun fn arg) (fun ps => ps.erase (fn, arg))
      (fun _ => DelOk fn arg) s.cls s.pairs
      (fun k rv cl ps r cl' hcat hdel hright => hcat.del_only hdel hright) h.cats 0 .einval r cls hr hpairs
    intro cl hmem hp
    obtain ⟨k, hk⟩ := mem_iff_getElem?.mp hmem
    exact hall k cl hk hp
  | out k => exact trivial
  | filter k len returns =>
    obtain ⟨cl, ps, hcl, hps, hcat⟩ := h.at he
    obtain ⟨cl', ps', hcl', hps', hright⟩ := hcalls
    intro c hc
    obtain rfl := some.inj (hcl.symm.trans hc)
    obtain rfl := some.inj (hcl.symm.trans hcl')
    obtain rfl := some.inj (hps.symm.trans hps')
    exact (hcat.packetfilter_iff len returns).mp hright

end

/-- In a run from categories without functions, the categories hold the pairs added and not deleted
and the events call each of them once, exactly if every call meets its condition. -/
theorem event_pairs_iff (paths : List (List UInt8)) (es : List EventCall)
    (hes : eventMachine.Along eventMachine.enabled (eventInit paths) es) :
    eventMachine.Always PairsHeld (eventInit paths) es ∧ eventMachine.Along EventCallsRight (eventInit paths) es ↔
    eventMachine.Along EventOk (eventInit paths) es := by
  apply Machine.always_and_along_iff EventInv (fun s h => h.held) _ _ (EventInv.init paths) es hes
  · intro s e h he hok
    exact h.step e he hok
  intro s e h he hbad hboth
  exact hbad (h.step_only e hboth.1 hboth.2 he)

def someMem : EventMem := ⟨some (fun _ => 0), some (fun _ => 0)⟩

def hubCalls : List EventCall :=
  [.add 1 [104, 117, 98] 10 (fun _ => someMem), .filter 0 100 (fun _ => 0), .del 1 [] 10]

theorem event_pairs_iff_hub : eventMachine.Always PairsHeld (eventInit [[104, 117, 98, 43], [115]]) hubCalls ∧
    eventMachine.Along EventCallsRight (eventInit [[104, 117, 98, 43], [115]]) hubCalls := by
  refine (event_pairs_iff [[104, 117, 98, 43], [115]] hubCalls
    ⟨trivial, (by decide : 0 < 2), trivial, trivial⟩).mpr ⟨?_, ?_, ?_, trivial⟩
  · intro k cl hk hpath
    rcases k with _ | _ | k
    · cases hk
      exact .inr ⟨by decide, by decide, .inl ⟨rfl, rfl, rfl⟩⟩
    · cases hk
      exact absurd hpath (by decide)
    · cases hk
  · intro cl hcl
    cases hcl
    exact .inr ⟨by decide, fun j hj => absurd hj (show ¬j + 1 < 1 by omega)⟩
  intro cl hcl _ i hi _ _
  rcases mem_pair.mp hcl with rfl | rfl
  · obtain rfl : i = 0 := Nat.lt_one_iff.mp hi
    exact ⟨rfl, rfl, rfl⟩
  · cases hi

theorem second_function_first_argument :
    ¬eventMachine.Always PairsHeld (eventInit [[]])
      [.add 1 [] 10 (fun _ => someMem), .del 1 [] 10, .add 2 [] 20 (fun _ => someMem)] := by
  intro h
  obtain ⟨-, -, -, -, hpairs⟩ := h
  obtain ⟨hhead, -⟩ := forall₂_cons.mp hpairs
  have hmem : (2, 20) ∈ [(2, 10)] := hhead.mem_iff.mp (Finset.mem_insert_self _ _)
  exact absurd hmem (by decide)

end Vde
