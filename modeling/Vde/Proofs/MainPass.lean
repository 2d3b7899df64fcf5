import Vde.Lib.SwapRange
import Vde.Proofs.PollTables

/-!
# A pass calls each ready handler once

A swap touches the index that the scan has come to and the one before it, so everything still to be
scanned stands where it stood when `poll` returned. Both indices of a swap are on the same side of
`nprio`.
-/

namespace Vde

open List Function

structure PollSlot where
  fd : Nat
  revents : BitVec 16
  record : Nat
  deriving DecidableEq

def slotAt (t : PollTable) (i : Nat) : PollSlot := ⟨(t.fds i).fd, (t.fds i).revents, t.fdpp i⟩

def recordType (t : PollTable) (a : Nat) : Option (BitVec 8) := (t.pp a).map PollPlus.type

/-- `t'` has the descriptors of `t` at the same places: none is added, removed or moved, and the
records keep their types. Poll masks and private data may differ. -/
structure SameDescriptors (t t' : PollTable) : Prop where
  nfds : t'.nfds = t.nfds
  nprio : t'.nprio = t.nprio
  slots : ∀ i < t.nfds, slotAt t' i = slotAt t i
  types : ∀ a, recordType t' a = recordType t a
  fdperm : t'.fdperm = t.fdperm

def PermRight (t : PollTable) : Prop :=
  (∀ i < t.nfds, ∀ j < t.nfds, (t.fds i).fd = (t.fds j).fd → i = j) ∧
    ∀ i < t.nfds, t.fdperm (t.fds i).fd = toShort i

def prioSlots (t : PollTable) : List PollSlot := (range' 0 t.nprio).map (slotAt t)

def ordinarySlots (t : PollTable) : List PollSlot :=
  (range' t.nprio (t.nfds - t.nprio)).map (slotAt t)

def callKey (c : IoCall) : Option (BitVec 8) × Nat × BitVec 16 := (some c.type, c.fd, c.revents)

def slotKey (t : PollTable) (i : Nat) : Option (BitVec 8) × Nat × BitVec 16 :=
  (recordType t (t.fdpp i), (t.fds i).fd, (t.fds i).revents)

/-! ## The steps -/

lemma SameDescriptors.trans {t u v : PollTable} (h : SameDescriptors t u) (h' : SameDescriptors u v) :
    SameDescriptors t v := by
  constructor
  · rw [h'.nfds, h.nfds]
  · rw [h'.nprio, h.nprio]
  · intro i hi
    rw [h'.slots i (by rw [h.nfds]; exact hi), h.slots i hi]
  · intro a
    rw [h'.types, h.types]
  · rw [h'.fdperm, h.fdperm]

lemma stampReady_same (i : Nat) (now : Int) (t : PollTable) : SameDescriptors t (stampReady i now t) := by
  refine ⟨rfl, rfl, fun _ _ => rfl, ?_, rfl⟩
  intro a
  rw [recordType, recordType, stampReady]
  dsimp only
  by_cases ha : a = t.fdpp i
  · rw [ha, update_self, Option.map_map]
    rfl
  · rw [update_of_ne ha]

lemma slotAt_swap {t : PollTable} {i : Nat} (h : optSwaps i t = true) :
    slotAt (optPoll i t) = slotAt t ∘ Equiv.swap i (i - 1) := by
  have hcond := of_decide_eq_true h
  funext k
  rw [optPoll, if_pos hcond, slotAt]
  dsimp only
  rw [swapAt_eq, swapAt_eq]
  rfl

lemma optPoll_idle {t : PollTable} {i : Nat} (h : optSwaps i t = false) : optPoll i t = t := by
  have hcond := of_decide_eq_false h
  rw [optPoll, if_neg hcond]

lemma optPoll_nfds (i : Nat) (t : PollTable) : (optPoll i t).nfds = t.nfds := by
  rw [optPoll]
  split <;> rfl

lemma optPoll_nprio (i : Nat) (t : PollTable) : (optPoll i t).nprio = t.nprio := by
  rw [optPoll]
  split <;> rfl

lemma optPoll_pp (i : Nat) (t : PollTable) : (optPoll i t).pp = t.pp := by
  rw [optPoll]
  split <;> rfl

lemma permRight_swap {t : PollTable} {i : Nat} (h : optSwaps i t = true) (hperm : PermRight t) :
    PermRight (optPoll i t) := by
  have hcond := of_decide_eq_true h
  obtain ⟨hi, hpos, -, -⟩ := hcond
  obtain ⟨honce, hback⟩ := hperm
  have hfd : ∀ k, ((optPoll i t).fds k).fd = (t.fds (Equiv.swap i (i - 1) k)).fd := by
    intro k
    exact congrArg PollSlot.fd (congrFun (slotAt_swap h) k)
  have hnfds := optPoll_nfds i t
  have hlt : ∀ k < t.nfds, Equiv.swap i (i - 1) k < t.nfds := by
    intro k hk
    by_cases hki : k = i
    · rw [hki, Equiv.swap_apply_left]
      omega
    by_cases hkj : k = i - 1
    · rw [hkj, Equiv.swap_apply_right]
      exact hi
    rw [Equiv.swap_apply_of_ne_of_ne hki hkj]
    exact hk
  have hfdperm : (optPoll i t).fdperm = update
      (update t.fdperm (t.fds (i - 1)).fd (toShort i)) (t.fds i).fd (toShort (i - 1)) := by
    rw [optPoll, if_pos (of_decide_eq_true h)]
    dsimp only
    rw [swapAt_eq, comp_apply, comp_apply, Equiv.swap_apply_left,
      Equiv.swap_apply_right]
  constructor
  · intro j hj k hk he
    rw [hnfds] at hj hk
    rw [hfd, hfd] at he
    exact Equiv.injective _ (honce _ (hlt j hj) _ (hlt k hk) he)
  intro k hk
  rw [hnfds] at hk
  rw [hfd, hfdperm]
  by_cases hkj : k = i - 1
  · rw [hkj, Equiv.swap_apply_right, update_self]
  have hne : (t.fds (Equiv.swap i (i - 1) k)).fd ≠ (t.fds i).fd := by
    intro he
    have hsw := honce _ (hlt k hk) _ hi he
    apply hkj
    rw [← Equiv.swap_apply_self i (i - 1) k, hsw, Equiv.swap_apply_left]
  rw [update_of_ne hne]
  by_cases hki : k = i
  · rw [hki, Equiv.swap_apply_left, update_self]
  have hne' : (t.fds k).fd ≠ (t.fds (i - 1)).fd := by
    intro he
    exact hkj (honce _ hk _ (by omega) he)
  rw [Equiv.swap_apply_of_ne_of_ne hki hkj, update_of_ne hne', hback k hk]

lemma SameDescriptors.permRight {t t' : PollTable} (h : SameDescriptors t t') (hperm : PermRight t) :
    PermRight t' := by
  have hfd : ∀ i < t.nfds, (t'.fds i).fd = (t.fds i).fd := by
    intro i hi
    exact congrArg PollSlot.fd (h.slots i hi)
  constructor
  · intro i hi j hj he
    rw [h.nfds] at hi hj
    rw [hfd i hi, hfd j hj] at he
    exact hperm.1 i hi j hj he
  intro i hi
  rw [h.nfds] at hi
  rw [hfd i hi, h.fdperm, hperm.2 i hi]

/-! ## The scan -/

/-- The records that the table points to are there, and the priority descriptors are among its
descriptors. -/
structure TableSound (t : PollTable) : Prop where
  prio_le : t.nprio ≤ t.nfds
  live : ∀ i < t.nfds, (t.pp (t.fdpp i)).isSome

structure ScanInv (t : PollTable) (i : Nat) (n : Int) (s : MainScan) : Prop where
  nfds : s.table.nfds = t.nfds
  nprio : s.table.nprio = t.nprio
  ahead : ∀ k, i ≤ k → k < t.nfds → slotAt s.table k = slotAt t k
  prio : (prioSlots s.table).Perm (prioSlots t)
  ordinary : (ordinarySlots s.table).Perm (ordinarySlots t)
  types : ∀ a, recordType s.table a = recordType t a
  count : n = ((range' i (t.nfds - i)).countP t.ready : Int)
  calls : s.calls.map callKey = ((range i).filter t.ready).map (slotKey t)
  swaps : ∀ j ∈ s.swaps, 0 < j ∧ j < t.nfds ∧ (j - 1 < t.nprio ↔ j < t.nprio)
  perm : PermRight t → PermRight s.table

lemma SameDescriptors.slots_perm {t t' : PollTable} (h : SameDescriptors t t') (hle : t.nprio ≤ t.nfds) :
    prioSlots t' = prioSlots t ∧ ordinarySlots t' = ordinarySlots t := by
  constructor
  · rw [prioSlots, prioSlots, h.nprio]
    apply map_congr_left
    intro i hi
    rw [mem_range'_1] at hi
    exact h.slots i (by omega)
  rw [ordinarySlots, ordinarySlots, h.nprio, h.nfds]
  apply map_congr_left
  intro i hi
  rw [mem_range'_1] at hi
  exact h.slots i (by omega)

section

variable {t : PollTable} {i : Nat} {n : Int} {s : MainScan}

lemma ScanInv.ready_eq (h : ScanInv t i n s) (hi : i < t.nfds) : s.table.ready i = t.ready i := by
  have hslot := congrArg PollSlot.revents (h.ahead i (Nat.le_refl i) hi)
  rw [slotAt, slotAt] at hslot
  dsimp only at hslot
  rw [PollTable.ready, PollTable.ready, hslot]

lemma ScanInv.count_succ (h : ScanInv t i n s) (hi : i < t.nfds) :
    n = ((range' (i + 1) (t.nfds - (i + 1))).countP t.ready : Int) + if t.ready i then 1 else 0 := by
  have hsplit : range' i (t.nfds - i) = i :: range' (i + 1) (t.nfds - (i + 1)) := by
    rw [show t.nfds - i = t.nfds - (i + 1) + 1 by omega, range'_succ]
  rw [h.count, hsplit, countP_cons]
  by_cases hready : t.ready i = true
  · rw [if_pos hready, if_pos hready]
    rfl
  rw [if_neg hready, if_neg hready]
  rfl

lemma ScanInv.ready (h : ScanInv t i n s) (hsound : TableSound t) (hi : i < t.nfds)
    (hready : t.ready i = true) {table : PollTable} (hsame : SameDescriptors s.table table) :
    ∃ call, ioCall s.table i = some call ∧
      ScanInv t (i + 1) (n - 1) { s with table := table, calls := s.calls ++ [call] } := by
  have hslot := h.ahead i (Nat.le_refl i) hi
  have hfdpp : s.table.fdpp i = t.fdpp i := congrArg PollSlot.record hslot
  have htype := h.types (t.fdpp i)
  obtain ⟨r, hr⟩ : ∃ r, s.table.pp (s.table.fdpp i) = some r := by
    obtain ⟨r, hr⟩ := Option.isSome_iff_exists.mp (hsound.live i hi)
    rw [recordType, recordType, hr, ← hfdpp] at htype
    obtain ⟨r', hr', -⟩ := Option.map_eq_some_iff.mp htype
    exact ⟨r', hr'⟩
  have hkey : callKey ⟨r.type, (s.table.fds i).fd, (s.table.fds i).revents, r.privateData⟩ =
      slotKey t i := by
    have hfd : (s.table.fds i).fd = (t.fds i).fd := congrArg PollSlot.fd hslot
    have hrev : (s.table.fds i).revents = (t.fds i).revents := congrArg PollSlot.revents hslot
    rw [callKey, slotKey, ← htype, recordType, ← hfdpp, hr, hfd, hrev]
    rfl
  obtain ⟨hprio, hordinary⟩ := hsame.slots_perm (by rw [h.nprio, h.nfds]; exact hsound.prio_le)
  refine ⟨⟨r.type, (s.table.fds i).fd, (s.table.fds i).revents, r.privateData⟩, ?_, ?_⟩
  · rw [ioCall, hr]
    rfl
  constructor
  · exact hsame.nfds.trans h.nfds
  · exact hsame.nprio.trans h.nprio
  · intro k hk hkn
    exact (hsame.slots k (by rw [h.nfds]; exact hkn)).trans (h.ahead k (by omega) hkn)
  · dsimp only
    rw [hprio]
    exact h.prio
  · dsimp only
    rw [hordinary]
    exact h.ordinary
  · intro a
    exact (hsame.types a).trans (h.types a)
  · have hcount := h.count_succ hi
    rw [if_pos hready] at hcount
    omega
  · rw [map_append, h.calls, range_succ, filter_append, map_append,
      filter_singleton, hready]
    exact congrArg (fun key => _ ++ [key]) hkey
  · exact h.swaps
  · intro hperm
    exact hsame.permRight (h.perm hperm)

lemma ScanInv.idle (h : ScanInv t i n s) (hsound : TableSound t) (hi : i < t.nfds)
    (hready : t.ready i = false) :
    ScanInv t (i + 1) n { s with
      table := optPoll i s.table, swaps := if optSwaps i s.table then s.swaps ++ [i] else s.swaps } := by
  have hcount := h.count_succ hi
  rw [hready, if_neg Bool.false_ne_true, Int.add_zero] at hcount
  have hcalls : s.calls.map callKey = ((range (i + 1)).filter t.ready).map (slotKey t) := by
    rw [h.calls, range_succ, filter_append, filter_singleton, hready]
    simp
  by_cases hswap : optSwaps i s.table = true
  · have hcond := of_decide_eq_true hswap
    obtain ⟨-, hpos, hne, -⟩ := hcond
    have hslots := slotAt_swap hswap
    have hnprio := h.nprio
    rw [hnprio] at hne
    have hle := hsound.prio_le
    have hprio : (prioSlots (optPoll i s.table)).Perm (prioSlots s.table) := by
      rw [prioSlots, prioSlots, optPoll_nprio, hslots, hnprio]
      by_cases hlt : i < t.nprio
      · exact map_swap_perm _ (by omega) (by omega)
      · rw [map_swap_outside _ (by omega) (by omega)]
    have hordinary : (ordinarySlots (optPoll i s.table)).Perm (ordinarySlots s.table) := by
      rw [ordinarySlots, ordinarySlots, optPoll_nprio, optPoll_nfds, hslots, hnprio, h.nfds]
      by_cases hlt : i < t.nprio
      · rw [map_swap_outside _ (by omega) (by omega)]
      · exact map_swap_perm _ (by omega) (by omega)
    rw [if_pos hswap]
    constructor
    · exact (optPoll_nfds i s.table).trans h.nfds
    · exact (optPoll_nprio i s.table).trans hnprio
    · intro k hk hkn
      dsimp only
      rw [hslots, comp_apply, Equiv.swap_apply_of_ne_of_ne (by omega) (by omega)]
      exact h.ahead k (by omega) hkn
    · exact hprio.trans h.prio
    · exact hordinary.trans h.ordinary
    · intro a
      dsimp only
      rw [recordType, optPoll_pp]
      exact h.types a
    · exact hcount
    · exact hcalls
    · intro j hj
      rcases mem_append.mp hj with hj | hj
      · exact h.swaps j hj
      rw [mem_singleton.mp hj]
      omega
    · intro hperm
      exact permRight_swap hswap (h.perm hperm)
  · rw [if_neg hswap, optPoll_idle (Bool.eq_false_iff.mpr hswap)]
    exact ⟨h.nfds, h.nprio, fun k hk hkn => h.ahead k (by omega) hkn, h.prio, h.ordinary, h.types,
      hcount, hcalls, h.swaps, h.perm⟩

end

lemma ScanInv.done {t : PollTable} {i : Nat} {n : Int} {s : MainScan} (h : ScanInv t i n s) (hn : ¬0 < n)
    (hi : i ≤ t.nfds) : s.calls.map callKey = ((range t.nfds).filter t.ready).map (slotKey t) := by
  have hnone : (range' i (t.nfds - i)).filter t.ready = [] := by
    have hcount := h.count
    apply length_eq_zero_iff.mp
    rw [← countP_eq_length_filter]
    omega
  have hsplit : range t.nfds = range i ++ range' i (t.nfds - i) := by
    have happend := range'_append_1 (s := 0) (m := i) (n := t.nfds - i)
    rw [Nat.zero_add, Nat.add_sub_cancel' hi] at happend
    rw [range_eq_range', range_eq_range', happend]
  rw [h.calls, hsplit, filter_append, hnone, append_nil]

structure PassRight (t : PollTable) (r : MainScan) : Prop where
  calls : r.calls.map callKey = ((range t.nfds).filter t.ready).map (slotKey t)
  nfds : r.table.nfds = t.nfds
  nprio : r.table.nprio = t.nprio
  prio : (prioSlots r.table).Perm (prioSlots t)
  ordinary : (ordinarySlots r.table).Perm (ordinarySlots t)
  swaps : ∀ j ∈ r.swaps, 0 < j ∧ j < t.nfds ∧ (j - 1 < t.nprio ↔ j < t.nprio)
  perm : PermRight t → PermRight r.table

lemma mainScan_run {handler : List IoCall → PollTable → PollTable} {now : Int} {t : PollTable}
    (hhandler : ∀ calls table, SameDescriptors table (handler calls table)) (hsound : TableSound t)
    {fuel i : Nat} {n : Int} {s : MainScan} (h : ScanInv t i n s) (hi : i ≤ t.nfds)
    (hfuel : t.nfds < fuel + i) : ∃ r, mainScan handler now fuel i n s = some r ∧ PassRight t r := by
  induction fuel generalizing i n s with
  | zero => exact absurd hfuel (by omega)
  | succ fuel ih =>
    rw [mainScan]
    by_cases hn : 0 < n
    · have hlt : i < t.nfds := by
        by_contra hge
        have hcount := h.count
        rw [Nat.sub_eq_zero_of_le (Nat.le_of_not_lt hge)] at hcount
        rw [hcount] at hn
        exact absurd hn (Int.lt_irrefl 0)
      rw [if_pos hn, if_pos (by rw [h.nfds]; exact hlt), h.ready_eq hlt]
      by_cases hready : t.ready i = true
      · have hstep : ∀ calls, SameDescriptors s.table (handler calls (stampReady i now s.table)) := by
          intro calls
          exact (stampReady_same i now s.table).trans (hhandler calls _)
        obtain ⟨call, hcall, -⟩ := h.ready hsound hlt hready (hstep [])
        obtain ⟨call', hcall', hnext⟩ := h.ready hsound hlt hready (hstep (s.calls ++ [call]))
        rw [hcall] at hcall'
        obtain rfl := Option.some.inj hcall'
        rw [if_pos hready, hcall, Option.bind_eq_bind, Option.bind_some]
        dsimp only
        rw [if_neg (not_not.mpr (hstep (s.calls ++ [call])).nfds)]
        exact ih hnext hlt (by omega)
      rw [if_neg hready]
      exact ih (h.idle hsound hlt (Bool.eq_false_iff.mpr hready)) hlt (by omega)
    · rw [if_neg hn]
      exact ⟨s, rfl, h.done hn hi, h.nfds, h.nprio, h.prio, h.ordinary, h.swaps, h.perm⟩

/-- A pass over any poll result, whose handlers neither add nor remove descriptors, ends within the
table, calls the handler of every ready descriptor once, in the order of the table, and only
permutes the priority descriptors and the others among themselves. -/
theorem main_pass_right {handler : List IoCall → PollTable → PollTable}
    (hhandler : ∀ calls table, SameDescriptors table (handler calls table)) (now : Int)
    (revents : Nat → BitVec 16) {t : PollTable} (hsound : TableSound t) :
    ∃ r, mainPass handler now (t.nfds + 1) revents t = some r ∧ PassRight (pollResult revents t) r := by
  have hsound' : TableSound (pollResult revents t) := ⟨hsound.prio_le, hsound.live⟩
  rw [mainPass]
  apply mainScan_run hhandler hsound' _ (Nat.zero_le _) (Nat.lt_succ_self _)
  refine ⟨rfl, rfl, fun k _ _ => rfl, Perm.refl _, Perm.refl _, fun a => rfl, ?_, rfl, ?_, id⟩
  · rw [readyCount, range_eq_range', Nat.sub_zero]
  intro j hj
  exact absurd hj not_mem_nil

def twoDescriptors : PollTable := addFd 4 0x01#8 0 2 (addFd 3 0x80#8 0 1 pollTableInit)

lemma twoDescriptors_sound : TableSound twoDescriptors := by
  constructor
  · decide
  intro i hi
  have hnfds : twoDescriptors.nfds = 2 := rfl
  have hcases : i = 0 ∨ i = 1 := by omega
  cases hcases with
  | inl h0 => rw [h0]; rfl
  | inr h1 => rw [h1]; rfl

theorem main_pass_right_two : ∃ r,
    mainPass (fun _ t => t) 5 3 (fun i => if i = 1 then 1#16 else 0#16) twoDescriptors = some r ∧
    PassRight (pollResult (fun i => if i = 1 then 1#16 else 0#16) twoDescriptors) r :=
  main_pass_right (fun _ _ => ⟨rfl, rfl, fun _ _ => rfl, fun _ => rfl, rfl⟩) 5 _ twoDescriptors_sound

end Vde
