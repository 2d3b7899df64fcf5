import Mathlib.Data.List.Nodup
import Mathlib.Data.List.Perm.Subperm
import Mathlib.Data.List.Range
import Vde.TypeTable

/-!
# Type numbers are not shared

The slots in use are those of the live types, so a table that is not full has a free one. The
first eight slots are cleared as they should be; when the table grows later, the `memset` goes
past its end.
-/

namespace Vde

open List Function

def TypesKept (s : TypeRun) : Prop :=
  ∀ p ∈ s.live, typeNumber p.1 < s.table.maxtypes ∧ s.table.fdtypes (typeNumber p.1) = some p.2

def numbers (s : TypeRun) : List Nat := s.live.map (fun p => typeNumber p.1)

def AddRight (s : TypeRun) : TypeEvent → Prop
  | .add mgr prio => ∃ r, addType mgr prio s.table = some r ∧ typeNumber r.2.1 ∉ numbers s ∧
      ∀ w ∈ r.2.2, w.off + w.len ≤ pointerSize * r.1.maxtypes
  | .del _ => True

def NoGrowth (s : TypeRun) : TypeEvent → Prop
  | .add _ _ => s.table.ntypes = s.table.maxtypes → s.table.maxtypes = 0
  | .del _ => True

/-- The array has the slots of the live types in use and no others. -/
structure TypeInv (s : TypeRun) : Prop where
  capacity : s.table.maxtypes = 0 ∨ s.table.maxtypes = 8
  count : s.table.ntypes = s.live.length
  distinct : (numbers s).Nodup
  kept : TypesKept s
  used : ∀ k < s.table.maxtypes, s.table.fdtypes k ≠ none → k ∈ numbers s
  running : s.stopped = false

lemma typeNumber_typeOf {i : Nat} (hi : i < 8) (prio : Bool) : typeNumber (typeOf i prio) = i := by
  have hall : ∀ i < 8, ∀ prio, typeNumber (typeOf i prio) = i := by decide
  exact hall i hi prio

lemma TypeInv.init : TypeInv typeRunInit := by
  constructor
  · exact Or.inl rfl
  · rfl
  · exact nodup_nil
  · intro p hp
    exact absurd hp not_mem_nil
  · intro k hk
    exact absurd hk (Nat.not_lt_zero k)
  · rfl

section

variable {s : TypeRun}

lemma TypeInv.length_le (h : TypeInv s) : s.live.length ≤ s.table.maxtypes := by
  have hsub : numbers s ⊆ range s.table.maxtypes := by
    intro k hk
    obtain ⟨p, hp, rfl⟩ := mem_map.mp hk
    exact mem_range.mpr (h.kept p hp).1
  have hle := (subperm_of_subset h.distinct hsub).length_le
  rwa [numbers, length_map, length_range] at hle

lemma TypeInv.exists_free (h : TypeInv s) (hlt : s.live.length < s.table.maxtypes) :
    ∃ i, (range s.table.maxtypes).find? (fun i => s.table.fdtypes i == none) = some i := by
  rw [← Option.isSome_iff_exists, find?_isSome]
  by_contra hfull
  simp only [not_exists, not_and, mem_range, beq_iff_eq] at hfull
  have hsub : range s.table.maxtypes ⊆ numbers s := by
    intro k hk
    rw [mem_range] at hk
    exact h.used k hk (hfull k hk)
  have hle := (subperm_of_subset nodup_range hsub).length_le
  rw [numbers, length_map, length_range] at hle
  omega

lemma TypeInv.store (h : TypeInv s) {i mgr : Nat} {prio : Bool} {written : List ByteRange}
    {t : TypeTable} (hi : i < 8) (hmax : t.maxtypes = 8) (hn : t.ntypes = s.table.ntypes)
    (hold : ∀ k < s.table.maxtypes, t.fdtypes k = s.table.fdtypes k)
    (hnew : ∀ k, s.table.maxtypes ≤ k → k < 8 → t.fdtypes k = none) (hfree : t.fdtypes i = none) :
    i ∉ numbers s ∧ TypeInv
      { table := (storeType i mgr prio written t).1
        live := s.live ++ [((storeType i mgr prio written t).2.1, mgr)]
        stopped := s.stopped } := by
  have hle : s.table.maxtypes ≤ 8 := by
    have hcap := h.capacity
    omega
  have hfresh : i ∉ numbers s := by
    intro hmem
    obtain ⟨p, hp, rfl⟩ := mem_map.mp hmem
    obtain ⟨hlt, hval⟩ := h.kept p hp
    rw [← hold _ hlt, hfree] at hval
    exact absurd hval (by simp)
  have hnum := typeNumber_typeOf hi prio
  refine ⟨hfresh, Or.inr hmax, ?_, ?_, ?_, ?_, h.running⟩
  · rw [length_append, length_singleton, ← h.count, ← hn]
    rfl
  · rw [numbers, map_append, nodup_append']
    refine ⟨h.distinct, nodup_singleton _, ?_⟩
    intro k hk hk'
    have hki : k = i := by
      rw [← hnum]
      exact mem_singleton.mp hk'
    exact hfresh (hki ▸ hk)
  · intro p hp
    rcases mem_append.mp hp with hp | hp
    · obtain ⟨hlt, hval⟩ := h.kept p hp
      have hne : typeNumber p.1 ≠ i := by
        intro he
        exact hfresh (he ▸ mem_map_of_mem hp)
      have hkept : update t.fdtypes i (some mgr) (typeNumber p.1) = some p.2 := by
        rw [update_of_ne hne, hold _ hlt, hval]
      have hlt' : typeNumber p.1 < t.maxtypes := by omega
      exact ⟨hlt', hkept⟩
    obtain rfl := mem_singleton.mp hp
    have hself : update t.fdtypes i (some mgr) (typeNumber (typeOf i prio)) = some mgr := by
      rw [hnum, update_self]
    have hlt' : typeNumber (typeOf i prio) < t.maxtypes := by omega
    exact ⟨hlt', hself⟩
  · intro k hk hne
    replace hk : k < t.maxtypes := hk
    replace hne : update t.fdtypes i (some mgr) k ≠ none := hne
    rw [numbers, map_append, mem_append]
    by_cases hki : k = i
    · right
      exact mem_singleton.mpr (hki.trans hnum.symm)
    left
    rw [update_of_ne hki] at hne
    have hlt : k < s.table.maxtypes := by
      by_contra hge
      exact hne (hnew k (by omega) (by omega))
    rw [hold k hlt] at hne
    exact h.used k hlt hne

lemma TypeInv.add (h : TypeInv s) {mgr : Nat} {prio : Bool} (hok : NoGrowth s (.add mgr prio)) :
    TypeInv (typeStep s (.add mgr prio)) ∧ AddRight s (.add mgr prio) := by
  have hcount := h.count
  have hle := h.length_le
  by_cases hfull : s.table.ntypes = s.table.maxtypes
  · -- the first call
    have hmax : s.table.maxtypes = 0 := hok hfull
    have hzero : s.table.ntypes = 0 := by omega
    have hadd : addType mgr prio s.table = some (storeType 0 mgr prio [⟨0, 64⟩]
        ⟨fun k => if 0 ≤ 8 * k ∧ 8 * (k + 1) ≤ 0 + 64 then none else s.table.fdtypes k, 0, 8⟩) := by
      rw [addType, if_pos hfull, hmax, hzero]
      rfl
    obtain ⟨hfresh, hinv⟩ := @TypeInv.store s h 0 mgr prio [⟨0, 64⟩]
      ⟨fun k => if 0 ≤ 8 * k ∧ 8 * (k + 1) ≤ 0 + 64 then none else s.table.fdtypes k, 0, 8⟩
      (by decide) rfl hzero.symm (fun k hk => absurd hk (by omega)) (fun k _ hk => if_pos (by omega)) rfl
    constructor
    · rw [typeStep, hadd]
      exact hinv
    refine ⟨_, hadd, ?_, ?_⟩
    · have hnum := typeNumber_typeOf (show 0 < 8 by decide) prio
      rw [← hnum] at hfresh
      exact hfresh
    intro w hw
    rcases mem_append.mp hw with hw | hw
    · rw [mem_singleton.mp hw]
      exact Nat.le_refl 64
    rw [mem_singleton.mp hw]
    exact (by decide : 8 * 0 + 8 ≤ 8 * 8)
  have hmax : s.table.maxtypes = 8 := by
    have hcap := h.capacity
    omega
  obtain ⟨i, hi⟩ := h.exists_free (by omega)
  have hadd : addType mgr prio s.table = some (storeType i mgr prio [] s.table) := by
    rw [addType, if_neg hfull, hi]
  have hlt : i < 8 := by
    have hmem := mem_of_find?_eq_some hi
    rwa [mem_range, hmax] at hmem
  have hfree : s.table.fdtypes i = none := by
    have hp := find?_some hi
    exact beq_iff_eq.mp hp
  obtain ⟨hfresh, hinv⟩ := @TypeInv.store s h i mgr prio [] s.table hlt hmax rfl (fun k _ => rfl)
    (fun k hk hk' => absurd hk (by omega)) hfree
  constructor
  · rw [typeStep, hadd]
    exact hinv
  refine ⟨_, hadd, ?_, ?_⟩
  · have hnum := typeNumber_typeOf hlt prio
    rw [← hnum] at hfresh
    exact hfresh
  intro w hw
  rw [mem_singleton.mp hw]
  have hbound : 8 * i + 8 ≤ 8 * s.table.maxtypes := by omega
  exact hbound

lemma TypeInv.del (h : TypeInv s) {type : BitVec 8} (hmem : type ∈ s.live.map Prod.fst) :
    TypeInv (typeStep s (.del type)) := by
  obtain ⟨q, hq, hqt⟩ := mem_map.mp hmem
  have hlt : typeNumber type < s.table.maxtypes := hqt ▸ (h.kept q hq).1
  have htypes : (s.live.map Prod.fst).Nodup := by
    have hmap : (s.live.map Prod.fst).map typeNumber = numbers s := by rw [numbers, map_map]; rfl
    exact Nodup.of_map typeNumber (hmap ▸ h.distinct)
  have hlen : (s.live.filter (fun p => p.1 != type)).length + 1 = s.live.length := by
    have hone : (s.live.filter (fun p => p.1 == type)).length = 1 := by
      rw [← countP_eq_length_filter]
      have hcount := count_eq_one_of_mem htypes hmem
      rwa [List.count, countP_map] at hcount
    have hsplit := length_eq_length_filter_add (l := s.live) (fun p => p.1 == type)
    have hnot : (s.live.filter (fun p => !(p.1 == type))) = s.live.filter (fun p => p.1 != type) := rfl
    rw [hnot] at hsplit
    omega
  have hother : ∀ p ∈ s.live, p.1 ≠ type → typeNumber p.1 ≠ typeNumber type := by
    intro p hp hne hnum
    rw [← hqt] at hne hnum
    exact hne (congrArg Prod.fst (inj_on_of_nodup_map h.distinct hp hq hnum))
  refine ⟨h.capacity, ?_, ?_, ?_, ?_, h.running⟩
  · have hcount := h.count
    have hgoal : s.table.ntypes - 1 = (s.live.filter (fun p => p.1 != type)).length := by omega
    exact hgoal
  · exact h.distinct.sublist (filter_sublist.map _)
  · intro p hp
    obtain ⟨hp, hne⟩ := mem_filter.mp hp
    obtain ⟨hplt, hval⟩ := h.kept p hp
    have hne' := hother p hp (bne_iff_ne.mp hne)
    refine ⟨hplt, ?_⟩
    have hkept : (if typeNumber type < s.table.maxtypes then
        update s.table.fdtypes (typeNumber type) none else s.table.fdtypes) (typeNumber p.1) =
        some p.2 := by
      rw [if_pos hlt, update_of_ne hne', hval]
    exact hkept
  · intro k hk hne
    replace hne : (if typeNumber type < s.table.maxtypes then
        update s.table.fdtypes (typeNumber type) none else s.table.fdtypes) k ≠ none := hne
    rw [if_pos hlt] at hne
    have hkn : k ≠ typeNumber type := by
      intro he
      rw [he, update_self] at hne
      exact hne rfl
    rw [update_of_ne hkn] at hne
    obtain ⟨p, hp, rfl⟩ := mem_map.mp (h.used k hk hne)
    have hpt : p.1 ≠ type := by
      intro he
      exact hkn (by rw [he])
    exact mem_map_of_mem (mem_filter.mpr ⟨hp, bne_iff_ne.mpr hpt⟩)

lemma TypeInv.grow (h : TypeInv s) {mgr : Nat} {prio : Bool} (hbad : ¬NoGrowth s (.add mgr prio)) :
    ¬AddRight s (.add mgr prio) := by
  obtain ⟨hfull, hne⟩ := Classical.not_imp.mp hbad
  have hmax : s.table.maxtypes = 8 := by
    have hcap := h.capacity
    omega
  have hn : s.table.ntypes = 8 := by omega
  intro hright
  obtain ⟨r, hr, -, hwrites⟩ := hright
  rw [addType, if_pos hfull, hmax, hn] at hr
  have hw := hwrites ⟨64, 120⟩ (by rw [← Option.some.inj hr]; exact mem_cons_self)
  rw [← Option.some.inj hr] at hw
  replace hw : 64 + 120 ≤ 8 * 16 := hw
  omega

end

/-- In a run of calls the numbers are right and no write leaves the array exactly if the array
never grows with types in it. -/
theorem add_type_right_iff (es : List TypeEvent) (hes : typeMachine.Along typeMachine.enabled typeRunInit es) :
    typeMachine.Always TypesKept typeRunInit es ∧ typeMachine.Along AddRight typeRunInit es ↔
    typeMachine.Along NoGrowth typeRunInit es := by
  apply Machine.always_and_along_iff TypeInv (fun s h => h.kept) _ _ TypeInv.init es hes
  · intro s e h he hok
    cases e with
    | add mgr prio => exact h.add hok
    | del type => exact ⟨h.del he.2, trivial⟩
  intro s e h he hbad hboth
  cases e with
  | add mgr prio => exact h.grow hbad hboth.2
  | del type => exact hbad trivial

/-- Two types are added, the first is deleted and its number given to a third. -/
theorem add_type_right_iff_reused :
    typeMachine.Always TypesKept typeRunInit [.add 1 false, .add 2 true, .del 0#8, .add 3 false] ∧
    typeMachine.Along AddRight typeRunInit [.add 1 false, .add 2 true, .del 0#8, .add 3 false] :=
  (add_type_right_iff [.add 1 false, .add 2 true, .del 0#8, .add 3 false]
    ⟨rfl, rfl, ⟨rfl, by decide⟩, rfl, trivial⟩).mpr ⟨fun _ => rfl, fun h => absurd h (by decide), trivial,
      fun h => absurd h (by decide), trivial⟩

/-- The ninth type: 120 bytes are cleared behind the first 64, in an array of 128. -/
theorem ninth_type_outside : typeMachine.Along typeMachine.enabled typeRunInit (replicate 9 (.add 1 false)) ∧
    ¬typeMachine.Along AddRight typeRunInit (replicate 9 (.add 1 false)) := by
  constructor
  · exact ⟨rfl, rfl, rfl, rfl, rfl, rfl, rfl, rfl, rfl, trivial⟩
  intro h
  obtain ⟨-, -, -, -, -, -, -, -, hninth, -⟩ := h
  obtain ⟨r, hr, -, hwrites⟩ := hninth
  have hw := hwrites ⟨64, 120⟩ (by rw [← Option.some.inj hr]; exact mem_cons_self)
  rw [← Option.some.inj hr] at hw
  exact absurd hw (by decide)

end Vde
