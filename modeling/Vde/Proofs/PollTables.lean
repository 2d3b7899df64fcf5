import Mathlib.Logic.Equiv.Basic
import Vde.Lib.Machine
import Vde.PollTable

/-!
# The permutation kept by the poll tables

The operations of the descriptor management run beside a registry that says which record belongs
to which descriptor. Three of them move elements of the arrays: `remove_fd` closes a gap, the main
loop exchanges neighbours, and `add_fd` of a priority descriptor displaces an ordinary one.
-/

namespace Vde

open Function

/-- One step of the descriptor management; `addFd` carries the address given by `malloc`. -/
inductive PollOp where
  | addFd (fd : Nat) (type : BitVec 8) (privateData a : Nat)
  | removeFd (fd : Nat)
  | optPoll (i : Nat)
  | stampReady (i : Nat) (now : Int)
  | pollResult (revents : Nat → BitVec 16)
  | setPrivateData (fd privateData : Nat)
  | pollmask (f : BitVec 16 → BitVec 16) (fd : Nat)

def PollOp.apply : PollOp → PollTable → PollTable
  | .addFd fd type privateData a => Vde.addFd fd type privateData a
  | .removeFd fd => Vde.removeFd fd
  | .optPoll i => Vde.optPoll i
  | .stampReady i now => Vde.stampReady i now
  | .pollResult revents => Vde.pollResult revents
  | .setPrivateData fd privateData => mainloopSetPrivateData fd privateData
  | .pollmask f fd => mainloopPollmask f fd

structure Polled where
  tab : PollTable
  owner : Nat → Option Nat

def PollOp.register : PollOp → (Nat → Option Nat) → (Nat → Option Nat)
  | .addFd fd _ _ a, owner => update owner fd (some a)
  | .removeFd fd, owner => update owner fd none
  | _, owner => owner

/-- Descriptors are added when they are not present, `malloc` returns a free address, and the
accessors are given registered descriptors. -/
def pollMachine : Machine Polled PollOp where
  enabled s
    | .addFd fd _ _ a => (∀ i < s.tab.nfds, (s.tab.fds i).fd ≠ fd) ∧ s.tab.pp a = none
    | .stampReady i _ => i < s.tab.nfds
    | .setPrivateData fd _ => s.owner fd ≠ none
    | .pollmask _ fd => s.owner fd ≠ none
    | _ => True
  step s op := ⟨op.apply s.tab, op.register s.owner⟩

def polledInit : Polled := ⟨pollTableInit, fun _ => none⟩

structure PollSound (s : Polled) : Prop where
  perm : ∀ i < s.tab.nfds, s.tab.fdperm (s.tab.fds i).fd = i
  prio_le : s.tab.nprio ≤ s.tab.nfds
  prio : ∀ i < s.tab.nfds, s.tab.prioAt i = true ↔ i < s.tab.nprio
  owned : ∀ i < s.tab.nfds, s.owner (s.tab.fds i).fd = some (s.tab.fdpp i)
  registered : ∀ fd a, s.owner fd = some a → ∃ i < s.tab.nfds, (s.tab.fds i).fd = fd
  once : ∀ i < s.tab.nfds, ∀ j < s.tab.nfds, (s.tab.fds i).fd = (s.tab.fds j).fd → i = j
  own : ∀ i < s.tab.nfds, ∀ j < s.tab.nfds, s.tab.fdpp i = s.tab.fdpp j → i = j
  live : ∀ i < s.tab.nfds, (s.tab.pp (s.tab.fdpp i)).isSome

structure PollInv (s : Polled) : Prop extends PollSound s where
  small : s.tab.nfds ≤ 32768
  permsize : ∀ i < s.tab.nfds, (s.tab.fds i).fd < s.tab.fdpermsize

/-- The accessors act on the record and on the poll mask of the descriptor they are given. -/
def ActsOnOwn (s : Polled) : Prop :=
  ∀ fd a, s.owner fd = some a →
    (∀ privateData, mainloopSetPrivateData fd privateData s.tab =
      { s.tab with pp := update s.tab.pp a
                    ((s.tab.pp a).map (fun r => { r with privateData := privateData })) }) ∧
    ∀ f, ∃ i < s.tab.nfds, (s.tab.fds i).fd = fd ∧ mainloopPollmask f fd s.tab =
      { s.tab with fds := update s.tab.fds i
                    { s.tab.fds i with events := f (s.tab.fds i).events } }

/-- The steps after which the permutation is still right: a priority descriptor is added while
there is no ordinary one, only the last element is removed, and indices fit a `short`. -/
def PollOk (s : Polled) : PollOp → Prop
  | .addFd _ type _ _ => s.tab.nfds < 32768 ∧ (isPrio type = true → s.tab.nprio = s.tab.nfds)
  | .removeFd fd => ∀ i < s.tab.nfds, (s.tab.fds i).fd = fd → i + 1 = s.tab.nfds
  | _ => True

lemma toShort_of_lt {n : Nat} (h : n < 32768) : toShort n = n := by
  have hr : (n : Int) % (65536 : Nat) = n := by omega
  unfold toShort Int.bmod
  rw [hr, if_pos (by omega)]

lemma toShort_lt (n : Nat) : toShort n < 32768 := by
  have := Int.bmod_lt (x := n) (m := 65536) (by omega)
  unfold toShort
  omega

lemma toShort_succ_ne (n : Nat) : toShort (n + 1) ≠ n := by
  intro h
  have hdvd := Int.dvd_bmod_sub_self (x := ((n + 1 : Nat) : Int)) (m := 65536)
  unfold toShort at h
  rw [h] at hdvd
  omega

lemma swapAt_eq {α : Type} (x : Nat → α) (i j : Nat) : swapAt x i j = x ∘ Equiv.swap i j := by
  funext k
  unfold swapAt
  by_cases hj : k = j
  · subst hj; simp
  by_cases hi : k = i
  · subst hi; simp [hj]
  · simp [hi, hj, Equiv.swap_apply_of_ne_of_ne hi hj]

variable {t : PollTable} {fd : Nat}

lemma findFd_eq_some {i : Nat} (h : findFd t fd = some i) : i < t.nfds ∧ (t.fds i).fd = fd := by
  unfold findFd at h
  have hmem := List.mem_of_find?_eq_some h
  have hp := List.find?_some h
  exact ⟨List.mem_range.mp hmem, by simpa using hp⟩

lemma findFd_eq_none (h : findFd t fd = none) : ∀ i < t.nfds, (t.fds i).fd ≠ fd := by
  unfold findFd at h
  intro i hi
  have := List.find?_eq_none.mp h i (List.mem_range.mpr hi)
  simpa using this

lemma renumber_last (fds : Nat → PollFd) (i count : Nat) (perm : Nat → Int) :
    renumber fds i (count + 1) perm (fds (i + count)).fd = toShort (i + count) := by
  induction count generalizing i perm with
  | zero => simp [renumber]
  | succ count ih =>
    rw [renumber]
    have := ih (i + 1) (update perm (fds i).fd (toShort i))
    rwa [show i + 1 + count = i + (count + 1) by omega] at this

/-! ## What each operation keeps -/

structure Appended (fd : Nat) (type : BitVec 8) (privateData a : Nat) (t t' : PollTable) : Prop where
  nfds : t'.nfds = t.nfds + 1
  nprio : t'.nprio = if isPrio type then t.nprio + 1 else t.nprio
  fds : ∀ i < t.nfds, t'.fds i = t.fds i
  fdpp : ∀ i < t.nfds, t'.fdpp i = t.fdpp i
  last : (t'.fds t.nfds).fd = fd
  lastpp : t'.fdpp t.nfds = a
  pp : t'.pp = update t.pp a (some ⟨type, privateData, 0⟩)
  fdperm : t'.fdperm = update t.fdperm fd (toShort t.nfds)
  size : t.fdpermsize ≤ t'.fdpermsize ∧ fd < t'.fdpermsize

variable {type : BitVec 8}

lemma addFd_appended (fd : Nat) (privateData a : Nat) (hprio : isPrio type = true → t.nprio = t.nfds) :
    Appended fd type privateData a t (addFd fd type privateData a t) := by
  have hidx : (if isPrio type = true then t.nprio else t.nfds) = t.nfds := by
    split
    · exact hprio ‹_›
    · rfl
  refine ⟨rfl, rfl, fun i hi => ?_, fun i hi => ?_, ?_, ?_, rfl, ?_, ?_⟩
  · have hne : i ≠ t.nfds := by omega
    simp only [addFd, hidx]
    split <;> simp [hne]
  · have hne : i ≠ t.nfds := by omega
    simp only [addFd, hidx]
    split <;> simp [hne]
  · simp [addFd, hidx]
  · simp [addFd, hidx]
  · simp [addFd, hidx]
  · simp only [addFd, Nat.shiftRight_eq_div_pow, Nat.shiftLeft_eq]
    split <;> omega

variable {s : Polled}

lemma pollInv_addFd {privateData a : Nat} (h : PollInv s) (hfd : ∀ i < s.tab.nfds, (s.tab.fds i).fd ≠ fd)
    (ha : s.tab.pp a = none) (hn : s.tab.nfds < 32768) (hprio : isPrio type = true → s.tab.nprio = s.tab.nfds) :
    PollInv ⟨addFd fd type privateData a s.tab, update s.owner fd (some a)⟩ := by
  have hfresh : ∀ i < s.tab.nfds, s.tab.fdpp i ≠ a := by
    intro i hi he
    have := h.live i hi
    simp [he, ha] at this
  obtain ⟨hnfds, hnprio, hfds, hfdpp, hlast, hlastpp, hpp, hperm, hsize⟩ :=
    addFd_appended fd privateData a hprio
  generalize addFd fd type privateData a s.tab = t at *
  have hsplit : ∀ i < t.nfds, i < s.tab.nfds ∨ i = s.tab.nfds := by
    intro i hi
    omega
  refine ⟨⟨?_, ?_, ?_, ?_, ?_, ?_, ?_, ?_⟩, ?_, ?_⟩ <;> dsimp only
  · intro i hi
    rcases hsplit i hi with hi | rfl
    · rw [hfds i hi, hperm, update_of_ne (hfd i hi)]
      exact h.perm i hi
    · rw [hlast, hperm, update_self, toShort_of_lt hn]
  · have := h.prio_le
    rw [hnprio, hnfds]
    split
    · have := hprio ‹_›
      omega
    · omega
  · intro i hi
    rcases hsplit i hi with hi | rfl
    · have hold : t.prioAt i = s.tab.prioAt i := by
        simp [PollTable.prioAt, hfdpp i hi, hpp, update_of_ne (hfresh i hi)]
      rw [hold, h.prio i hi, hnprio]
      split
      · have := hprio ‹_›
        omega
      · rfl
    have hnew : t.prioAt s.tab.nfds = isPrio type := by
      simp [PollTable.prioAt, hlastpp, hpp]
    have := h.prio_le
    rw [hnew, hnprio]
    split
    · have := hprio ‹_›
      simp_all
    · simp_all
  · intro i hi
    rcases hsplit i hi with hi | rfl
    · rw [hfds i hi, hfdpp i hi, update_of_ne (hfd i hi)]
      exact h.owned i hi
    · rw [hlast, hlastpp, update_self]
  · intro fd' a' hown
    by_cases he : fd' = fd
    · exact ⟨s.tab.nfds, by omega, by rw [he]; exact hlast⟩
    rw [update_of_ne he] at hown
    obtain ⟨i, hi, hfd'⟩ := h.registered fd' a' hown
    exact ⟨i, by omega, by rw [hfds i hi, hfd']⟩
  · intro i hi j hj he
    rcases hsplit i hi with hi | rfl <;> rcases hsplit j hj with hj | rfl
    · rw [hfds i hi, hfds j hj] at he
      exact h.once i hi j hj he
    · rw [hfds i hi, hlast] at he
      exact absurd he (hfd i hi)
    · rw [hfds j hj, hlast] at he
      exact absurd he.symm (hfd j hj)
    · rfl
  · intro i hi j hj he
    rcases hsplit i hi with hi | rfl <;> rcases hsplit j hj with hj | rfl
    · rw [hfdpp i hi, hfdpp j hj] at he
      exact h.own i hi j hj he
    · rw [hfdpp i hi, hlastpp] at he
      exact absurd he (hfresh i hi)
    · rw [hfdpp j hj, hlastpp] at he
      exact absurd he.symm (hfresh j hj)
    · rfl
  · intro i hi
    rcases hsplit i hi with hi | rfl
    · rw [hfdpp i hi, hpp, update_of_ne (hfresh i hi)]
      exact h.live i hi
    · rw [hlastpp, hpp, update_self, Option.isSome_some]
  · omega
  · intro i hi
    rcases hsplit i hi with hi | rfl
    · rw [hfds i hi]
      exact Nat.lt_of_lt_of_le (h.permsize i hi) hsize.1
    rw [hlast]
    exact hsize.2

lemma addFd_breaks (privateData a : Nat) (h : PollInv s) (hfd : ∀ i < s.tab.nfds, (s.tab.fds i).fd ≠ fd)
    (hbad : ¬(s.tab.nfds < 32768 ∧ (isPrio type = true → s.tab.nprio = s.tab.nfds))) :
    ∃ i < (addFd fd type privateData a s.tab).nfds,
    (addFd fd type privateData a s.tab).fdperm ((addFd fd type privateData a s.tab).fds i).fd ≠ i := by
  have hle := h.prio_le
  have hnfds : (addFd fd type privateData a s.tab).nfds = s.tab.nfds + 1 := rfl
  refine ⟨s.tab.nfds, by omega, ?_⟩
  by_cases hd : isPrio type = true ∧ s.tab.nprio < s.tab.nfds
  · -- the displaced descriptor is still mapped to its old index
    obtain ⟨hp, hlt⟩ := hd
    have hne : s.tab.nfds ≠ s.tab.nprio := by omega
    have hold := h.perm s.tab.nprio hlt
    simp only [addFd, hp, if_true, update_of_ne hne, update_self,
      update_of_ne (hfd _ hlt), hold]
    omega
  -- the index does not fit
  have hidx : (if isPrio type = true then s.tab.nprio else s.tab.nfds) = s.tab.nfds := by
    split
    · have : ¬s.tab.nprio < s.tab.nfds := fun hlt => hd ⟨‹_›, hlt⟩
      omega
    · rfl
  have hbig : 32768 ≤ s.tab.nfds := by
    by_contra hlt
    refine hbad ⟨by omega, fun hp => ?_⟩
    have : ¬s.tab.nprio < s.tab.nfds := fun hlt => hd ⟨hp, hlt⟩
    omega
  have := toShort_lt s.tab.nfds
  simp only [addFd, hidx, update_self]
  omega

lemma pollInv_removeFd (h : PollInv s) (hlast : ∀ i < s.tab.nfds, (s.tab.fds i).fd = fd → i + 1 = s.tab.nfds) :
    PollInv ⟨removeFd fd s.tab, update s.owner fd none⟩ := by
  unfold removeFd
  cases hfind : findFd s.tab fd with
  | none =>
    have hnot := findFd_eq_none hfind
    have hown : s.owner fd = none := by
      cases ho : s.owner fd with
      | none => rfl
      | some a =>
        obtain ⟨i, hi, he⟩ := h.registered fd a ho
        exact absurd he (hnot i hi)
    have hsame : update s.owner fd none = s.owner := by
      rw [← hown]
      exact update_eq_self fd s.owner
    rw [hsame]
    exact h
  | some i =>
    obtain ⟨hi, hfd⟩ := findFd_eq_some hfind
    have hin : i + 1 = s.tab.nfds := hlast i hi hfd
    have hgap : ∀ {α : Type} (x : Nat → α), closeGap x i s.tab.nfds = x := by
      intro α x
      funext j
      have : ¬(i ≤ j ∧ j < s.tab.nfds - 1) := by omega
      simp [closeGap, this]
    have hother : ∀ j < s.tab.nfds - 1, (s.tab.fds j).fd ≠ fd := by
      intro j hj he
      have := hlast j (by omega) he
      omega
    have hotherpp : ∀ j < s.tab.nfds - 1, s.tab.fdpp j ≠ s.tab.fdpp i := by
      intro j hj he
      have := h.own j (by omega) i hi he
      omega
    have hren : renumber s.tab.fds i (s.tab.nfds - i) s.tab.fdperm =
        update s.tab.fdperm fd (toShort i) := by
      rw [show s.tab.nfds - i = 1 by omega]
      simp [renumber, hfd]
    simp only [hgap, hren]
    refine ⟨⟨?_, ?_, ?_, ?_, ?_, ?_, ?_, ?_⟩, ?_, ?_⟩ <;> dsimp only
    · intro j hj
      rw [update_of_ne (hother j hj)]
      exact h.perm j (by omega)
    · have := h.prio_le
      have := h.prio i hi
      split <;> simp_all <;> omega
    · intro j hj
      have hkeep : ∀ t : PollTable, t.fdpp = s.tab.fdpp →
          t.pp = update s.tab.pp (s.tab.fdpp i) none → t.prioAt j = s.tab.prioAt j := by
        intro t hfdpp hpp
        rw [PollTable.prioAt, PollTable.prioAt, hfdpp, hpp, update_of_ne (hotherpp j hj)]
      have hi' := h.prio i hi
      refine (Bool.eq_iff_iff.mp (hkeep _ (by rfl) (by rfl))).trans ?_
      rw [h.prio j (by omega)]
      split
      · have := hi'.mp ‹_›
        omega
      · rfl
    · intro j hj
      rw [update_of_ne (hother j hj)]
      exact h.owned j (by omega)
    · intro fd' a' hown
      have hne : fd' ≠ fd := by
        intro he
        rw [he, update_self] at hown
        exact absurd hown (by simp)
      rw [update_of_ne hne] at hown
      obtain ⟨j, hj, he⟩ := h.registered fd' a' hown
      refine ⟨j, ?_, he⟩
      have : j ≠ i := by
        rintro rfl
        exact hne (he.symm.trans hfd)
      omega
    · intro j hj k hk he
      exact h.once j (by omega) k (by omega) he
    · intro j hj k hk he
      exact h.own j (by omega) k (by omega) he
    · intro j hj
      rw [update_of_ne (hotherpp j hj)]
      exact h.live j (by omega)
    · have := h.small
      omega
    · intro j hj
      exact h.permsize j (by omega)

lemma removeFd_breaks (h : PollInv s) (hbad : ¬∀ i < s.tab.nfds, (s.tab.fds i).fd = fd → i + 1 = s.tab.nfds) :
    ∃ i < (removeFd fd s.tab).nfds, (removeFd fd s.tab).fdperm ((removeFd fd s.tab).fds i).fd ≠ i := by
  simp only [not_forall] at hbad
  obtain ⟨i, hi, hfd, hne⟩ := hbad
  unfold removeFd
  cases hfind : findFd s.tab fd with
  | none => exact absurd hfd (findFd_eq_none hfind i hi)
  | some j =>
    obtain ⟨hj, hjfd⟩ := findFd_eq_some hfind
    obtain rfl : j = i := h.once j hj i hi (hjfd.trans hfd.symm)
    -- the last element moves one place down, but the loop also visits its stale copy
    obtain ⟨n, hn⟩ : ∃ n, s.tab.nfds = j + n + 2 := ⟨s.tab.nfds - j - 2, by omega⟩
    refine ⟨j + n, by dsimp only; omega, ?_⟩
    have hmoved : closeGap s.tab.fds j s.tab.nfds (j + n) = s.tab.fds (j + n + 1) := by
      simp [closeGap, hn]
    have hstale : closeGap s.tab.fds j s.tab.nfds (j + (n + 1)) = s.tab.fds (j + n + 1) := by
      have : ¬(j ≤ j + (n + 1) ∧ j + (n + 1) < s.tab.nfds - 1) := by omega
      rw [closeGap, if_neg this, Nat.add_assoc]
    have hren := renumber_last (closeGap s.tab.fds j s.tab.nfds) j (n + 1) s.tab.fdperm
    rw [hstale] at hren
    dsimp only
    rw [hmoved, show s.tab.nfds - j = n + 1 + 1 by omega, hren, ← Nat.add_assoc]
    exact toShort_succ_ne (j + n)

lemma pollInv_optPoll (i : Nat) (h : PollInv s) : PollInv ⟨optPoll i s.tab, s.owner⟩ := by
  unfold optPoll
  split
  case isFalse => exact h
  case isTrue hc =>
    obtain ⟨hi, hpos, hnp, -⟩ := hc
    have hsmall := h.small
    -- the two arrays are composed with the same transposition
    let σ := Equiv.swap i (i - 1)
    have hσ : ∀ k, σ k = if k = i then i - 1 else if k = i - 1 then i else k :=
      fun k => Equiv.swap_apply_def i (i - 1) k
    have hlt : ∀ k < s.tab.nfds, σ k < s.tab.nfds := by
      intro k hk
      rw [hσ]
      split
      · omega
      · split <;> omega
    have hfd : ∀ k < s.tab.nfds, ∀ l < s.tab.nfds, k ≠ l → (s.tab.fds k).fd ≠ (s.tab.fds l).fd :=
      fun k hk l hl hne he => hne (h.once k hk l hl he)
    have hprioAt : ∀ t : PollTable, t.fdpp = s.tab.fdpp ∘ σ → t.pp = s.tab.pp →
        ∀ k, t.prioAt k = s.tab.prioAt (σ k) := by
      intro t hfdpp hpp k
      rw [PollTable.prioAt, PollTable.prioAt, hfdpp, hpp]
      rfl
    simp only [swapAt_eq, comp_apply, Equiv.swap_apply_left, Equiv.swap_apply_right]
    refine ⟨⟨?_, h.prio_le, ?_, ?_, ?_, ?_, ?_, ?_⟩, h.small, ?_⟩ <;> dsimp only
    · intro k hk
      change update (update s.tab.fdperm (s.tab.fds (i - 1)).fd (toShort i))
        (s.tab.fds i).fd (toShort (i - 1)) (s.tab.fds (σ k)).fd = k
      rw [hσ]
      by_cases hki : k = i
      · rw [if_pos hki, update_of_ne (hfd (i - 1) (by omega) i hi (by omega)),
          update_self, toShort_of_lt (by omega), hki]
      by_cases hkp : k = i - 1
      · rw [if_neg hki, if_pos hkp, update_self, toShort_of_lt (by omega), hkp]
      rw [if_neg hki, if_neg hkp, update_of_ne (hfd k hk i hi hki),
        update_of_ne (hfd k hk (i - 1) (by omega) hkp)]
      exact h.perm k hk
    · intro k hk
      refine (Bool.eq_iff_iff.mp (hprioAt _ (by rfl) (by rfl) k)).trans ?_
      rw [h.prio _ (hlt k hk), hσ]
      split
      · omega
      · split <;> omega
    · intro k hk
      exact h.owned _ (hlt k hk)
    · intro fd a hown
      obtain ⟨k, hk, he⟩ := h.registered fd a hown
      refine ⟨σ k, hlt k hk, ?_⟩
      change (s.tab.fds (σ (σ k))).fd = fd
      rw [Equiv.swap_apply_self, he]
    · intro k hk l hl he
      exact σ.injective (h.once _ (hlt k hk) _ (hlt l hl) he)
    · intro k hk l hl he
      exact σ.injective (h.own _ (hlt k hk) _ (hlt l hl) he)
    · intro k hk
      exact h.live _ (hlt k hk)
    · intro k hk
      exact h.permsize _ (hlt k hk)

lemma pollInv_of_frame (h : PollInv s) (hnfds : t.nfds = s.tab.nfds)
    (hnprio : t.nprio = s.tab.nprio) (hperm : t.fdperm = s.tab.fdperm) (hsize : t.fdpermsize = s.tab.fdpermsize)
    (hfdpp : t.fdpp = s.tab.fdpp) (hfds : ∀ i, (t.fds i).fd = (s.tab.fds i).fd)
    (hpp : ∀ a, (t.pp a).map PollPlus.type = (s.tab.pp a).map PollPlus.type) : PollInv ⟨t, s.owner⟩ := by
  have hprioAt : ∀ i, t.prioAt i = s.tab.prioAt i := by
    intro i
    have := congrArg (Option.any isPrio) (hpp (s.tab.fdpp i))
    simpa [PollTable.prioAt, hfdpp, Option.any_map, comp_def] using this
  refine ⟨⟨?_, ?_, ?_, ?_, ?_, ?_, ?_, ?_⟩, ?_, ?_⟩ <;> dsimp only
  · simpa only [hnfds, hperm, hfds] using h.perm
  · simpa only [hnfds, hnprio] using h.prio_le
  · simpa only [hnfds, hnprio, hprioAt] using h.prio
  · simpa only [hnfds, hfds, hfdpp] using h.owned
  · simpa only [hnfds, hfds] using h.registered
  · simpa only [hnfds, hfds] using h.once
  · simpa only [hnfds, hfdpp] using h.own
  · intro i hi
    have hlive := h.live i (by omega)
    have := congrArg Option.isSome (hpp (s.tab.fdpp i))
    rw [hfdpp]
    simpa [hlive] using this
  · simpa only [hnfds] using h.small
  · simpa only [hnfds, hfds, hsize] using h.permsize

lemma record_update_type (pp : Nat → Option PollPlus) (a : Nat) (f : PollPlus → PollPlus)
    (hf : ∀ r, (f r).type = r.type) (b : Nat) :
    (update pp a ((pp a).map f) b).map PollPlus.type = (pp b).map PollPlus.type := by
  by_cases hb : b = a
  · subst hb
    simp [comp_def, hf]
  · rw [update_of_ne hb]

lemma pollInv_stampReady (i : Nat) (now : Int) (h : PollInv s) : PollInv ⟨stampReady i now s.tab, s.owner⟩ :=
  pollInv_of_frame h rfl rfl rfl rfl rfl (fun _ => rfl)
    (record_update_type _ _ _ (fun _ => rfl))

lemma pollInv_setPrivateData (fd privateData : Nat) (h : PollInv s) :
    PollInv ⟨mainloopSetPrivateData fd privateData s.tab, s.owner⟩ := by
  unfold mainloopSetPrivateData
  split
  · exact pollInv_of_frame h rfl rfl rfl rfl rfl (fun _ => rfl)
      (record_update_type _ _ _ (fun _ => rfl))
  · exact h

lemma pollInv_pollmask (f : BitVec 16 → BitVec 16) (fd : Nat) (h : PollInv s) :
    PollInv ⟨mainloopPollmask f fd s.tab, s.owner⟩ := by
  refine pollInv_of_frame h rfl rfl rfl rfl rfl (fun i => ?_) (fun _ => rfl)
  unfold mainloopPollmask
  by_cases hi : i = (s.tab.fdperm fd).toNat
  · simp [hi]
  · simp [update_of_ne hi]

lemma actsOnOwn_of_inv (h : PollInv s) : ActsOnOwn s := by
  intro fd a hown
  obtain ⟨i, hi, rfl⟩ := h.registered fd a hown
  have hidx : (s.tab.fdperm (s.tab.fds i).fd).toNat = i := by
    rw [h.perm i hi]
    simp
  have ha : s.tab.fdpp i = a := by simpa [h.owned i hi] using hown
  refine ⟨fun privateData => ?_, fun f => ⟨i, hi, rfl, ?_⟩⟩
  · unfold mainloopSetPrivateData
    rw [if_pos (h.permsize i hi), hidx, ha]
  unfold mainloopPollmask
  rw [hidx]

/-- The tables are right, and the accessors find what they look for. -/
def PollGood (s : Polled) : Prop := PollSound s ∧ ActsOnOwn s

lemma pollInv_init : PollInv polledInit := by
  refine ⟨⟨?_, ?_, ?_, ?_, ?_, ?_, ?_, ?_⟩, ?_, ?_⟩ <;> simp [polledInit, pollTableInit]

lemma pollInv_step {op : PollOp} (h : PollInv s) (he : pollMachine.enabled s op)
    (hok : PollOk s op) : PollInv (pollMachine.step s op) := by
  cases op with
  | addFd fd type privateData a => exact pollInv_addFd h he.1 he.2 hok.1 hok.2
  | removeFd fd => exact pollInv_removeFd h hok
  | optPoll i => exact pollInv_optPoll i h
  | stampReady i now => exact pollInv_stampReady i now h
  | pollResult revents =>
    exact pollInv_of_frame h rfl rfl rfl rfl rfl (fun _ => rfl) (fun _ => rfl)
  | setPrivateData fd privateData => exact pollInv_setPrivateData fd privateData h
  | pollmask f fd => exact pollInv_pollmask f fd h

lemma pollOk_of_good {op : PollOp} (h : PollInv s) (he : pollMachine.enabled s op)
    (hgood : PollGood (pollMachine.step s op)) : PollOk s op := by
  by_contra hbad
  cases op with
  | addFd fd type privateData a =>
    obtain ⟨i, hi, hne⟩ := addFd_breaks privateData a h he.1 hbad
    exact hne (hgood.1.perm i hi)
  | removeFd fd =>
    obtain ⟨i, hi, hne⟩ := removeFd_breaks h hbad
    exact hne (hgood.1.perm i hi)
  | optPoll i => exact hbad trivial
  | stampReady i now => exact hbad trivial
  | pollResult revents => exact hbad trivial
  | setPrivateData fd privateData => exact hbad trivial
  | pollmask f fd => exact hbad trivial

/-- The poll tables are right in all states of a run exactly when the run adds priority
descriptors only in front of no ordinary one, removes only the last element of the arrays, and
keeps to indices that fit a `short`. -/
theorem pollTables_permutation (ops : List PollOp) (hops : pollMachine.Along pollMachine.enabled polledInit ops) :
    pollMachine.Always PollGood polledInit ops ↔ pollMachine.Along PollOk polledInit ops := by
  refine Machine.always_iff_along PollInv ?_ ?_ ?_ pollInv_init ops hops
  · intro s h
    exact ⟨h.toPollSound, actsOnOwn_of_inv h⟩
  · intro s op h he hok
    exact pollInv_step h he hok
  intro s op h he hbad hgood
  exact hbad (pollOk_of_good h he hgood)

theorem pollTables_permutation_two :
    pollMachine.Always PollGood polledInit [.addFd 3 0x80#8 0 1, .addFd 4 1#8 0 2, .removeFd 4] ↔
    pollMachine.Along PollOk polledInit [.addFd 3 0x80#8 0 1, .addFd 4 1#8 0 2, .removeFd 4] :=
  pollTables_permutation _
    ⟨by simp [pollMachine, polledInit, pollTableInit],
      by simp [pollMachine, polledInit, pollTableInit, PollOp.apply, addFd, isPrio],
      trivial, trivial⟩

/-- Two connections, then the first one closes: the remaining descriptor 4 is at index 0 of the
arrays and `fdperm` sends it to index 1. -/
theorem pollTables_remove_first :
    pollMachine.Along pollMachine.enabled polledInit [.addFd 3 1#8 0 1, .addFd 4 1#8 0 2, .removeFd 3] ∧
    ¬pollMachine.Always PollGood polledInit [.addFd 3 1#8 0 1, .addFd 4 1#8 0 2, .removeFd 3] := by
  refine ⟨⟨?_, ?_, trivial, trivial⟩, ?_⟩
  · simp [pollMachine, polledInit, pollTableInit]
  · simp [pollMachine, polledInit, pollTableInit, PollOp.apply, addFd, isPrio]
  rintro ⟨-, -, -, h⟩
  have hperm := h.1.perm 0 (by decide)
  revert hperm
  decide

end Vde
