import Mathlib.Data.List.Nodup
import Mathlib.Data.List.Perm.Basic
import Vde.Proofs.PollTables

/-!
# What the poll tables ask for

The elements of the poll tables as a bag: a descriptor, its poll mask and its record. The
operations of the descriptor management add one element, remove one or only move them, whatever
they do to `fdperm`; only the accessors of the poll mask depend on it. So every descriptor keeps
its mask as long as `fdperm` has its index when the mask is changed.
-/

namespace Vde

open List Function

structure PollEntry where
  fd : Nat
  events : BitVec 16
  record : Nat
  deriving DecidableEq

def PollTable.entryAt (t : PollTable) (i : Nat) : PollEntry := ⟨(t.fds i).fd, (t.fds i).events, t.fdpp i⟩

def PollTable.entries (t : PollTable) : List PollEntry := (range t.nfds).map t.entryAt

def prioRecord (pp : Nat → Option PollPlus) (a : Nat) : Bool := (pp a).any (fun r => isPrio r.type)

/-- Every descriptor occurs once and has its own record, and `nprio` counts those with priority. -/
structure PollBag (t : PollTable) : Prop where
  fds : (t.entries.map PollEntry.fd).Nodup
  records : (t.entries.map PollEntry.record).Nodup
  live : ∀ e ∈ t.entries, t.pp e.record ≠ none
  prio : t.nprio = t.entries.countP (fun e => prioRecord t.pp e.record)

lemma entries_length (t : PollTable) : t.entries.length = t.nfds := by simp [PollTable.entries]

lemma entries_getElem (t : PollTable) (i : Nat) (h : i < t.entries.length) : t.entries[i] = t.entryAt i := by
  simp [PollTable.entries]

variable {t : PollTable}

lemma mem_entries {e : PollEntry} : e ∈ t.entries ↔ ∃ i < t.nfds, t.entryAt i = e := by
  simp [PollTable.entries]

lemma PollBag.prio_le (h : PollBag t) : t.nprio ≤ t.nfds := by
  rw [h.prio, ← entries_length]
  exact countP_le_length

variable {t' : PollTable}

lemma PollBag.of_perm {l : List PollEntry} (hperm : t'.entries.Perm l) (hfds : (l.map PollEntry.fd).Nodup)
    (hrecords : (l.map PollEntry.record).Nodup) (hlive : ∀ e ∈ l, t'.pp e.record ≠ none)
    (hprio : t'.nprio = l.countP (fun e => prioRecord t'.pp e.record)) : PollBag t' where
  fds := ((hperm.map _).nodup_iff).mpr hfds
  records := ((hperm.map _).nodup_iff).mpr hrecords
  live e he := hlive e (hperm.mem_iff.mp he)
  prio := by rw [hprio, hperm.countP_eq]

lemma entries_addFd (hle : t.nprio ≤ t.nfds) (fd : Nat) (type : BitVec 8) (privateData a : Nat) :
    (addFd fd type privateData a t).entries.Perm (⟨fd, pollInHup, a⟩ :: t.entries) := by
  set t' := addFd fd type privateData a t with ht'
  have hnfds : t'.nfds = t.nfds + 1 := rfl
  rw [PollTable.entries, hnfds, range_succ, map_append, map_singleton]
  by_cases hp : isPrio type = true
  · have hnew : t'.entryAt t.nprio = ⟨fd, pollInHup, a⟩ := by
      simp [PollTable.entryAt, ht', addFd, hp]
    by_cases hlast : t.nprio = t.nfds
    · -- no ordinary descriptor is displaced
      have hsame : (range t.nfds).map t'.entryAt = t.entries := by
        apply map_congr_left
        intro i hi
        have hi' : i ≠ t.nfds := Nat.ne_of_lt (mem_range.mp hi)
        simp [PollTable.entryAt, ht', addFd, hp, hlast, hi']
      rw [hsame, ← hlast, hnew]
      exact perm_append_comm
    have hlt : t.nprio < t.entries.length := by
      rw [entries_length]
      omega
    have hmoved : t'.entryAt t.nfds = t.entries[t.nprio] := by
      rw [entries_getElem]
      simp [PollTable.entryAt, ht', addFd, hp, Ne.symm hlast]
    have hset : (range t.nfds).map t'.entryAt = t.entries.set t.nprio ⟨fd, pollInHup, a⟩ := by
      apply ext_getElem
      · simp [PollTable.entries]
      intro i h1 h2
      have hi : i < t.nfds := by simpa using h1
      rw [getElem_map, getElem_range, getElem_set]
      by_cases hip : t.nprio = i
      · rw [if_pos hip, ← hip, hnew]
      rw [if_neg hip, entries_getElem]
      simp [PollTable.entryAt, ht', addFd, hp, Ne.symm hip, Nat.ne_of_lt hi]
    rw [hset, hmoved]
    have hfirst : (t.entries.set t.nprio ⟨fd, pollInHup, a⟩ ++ [t.entries[t.nprio]]).Perm
        (⟨fd, pollInHup, a⟩ :: t.entries.eraseIdx t.nprio ++ [t.entries[t.nprio]]) :=
      (set_perm_cons_eraseIdx hlt _).append_right _
    have hback : (t.entries.eraseIdx t.nprio ++ [t.entries[t.nprio]]).Perm t.entries :=
      perm_append_comm.trans (getElem_cons_eraseIdx_perm hlt)
    exact hfirst.trans (hback.cons _)
  · have hnew : t'.entryAt t.nfds = ⟨fd, pollInHup, a⟩ := by
      simp [PollTable.entryAt, ht', addFd, hp]
    have hsame : (range t.nfds).map t'.entryAt = t.entries := by
      apply map_congr_left
      intro i hi
      have hi' : i ≠ t.nfds := Nat.ne_of_lt (mem_range.mp hi)
      simp [PollTable.entryAt, ht', addFd, hp, hi']
    rw [hsame, hnew]
    exact perm_append_comm

variable {fd : Nat}

lemma entries_removeFd {i : Nat} (hfind : findFd t fd = some i) :
    (removeFd fd t).entries = t.entries.eraseIdx i := by
  have hi := (findFd_eq_some hfind).1
  apply ext_getElem
  · rw [entries_length, length_eraseIdx, if_pos (by rw [entries_length]; exact hi), entries_length,
      removeFd, hfind]
  intro j h1 h2
  rw [entries_length, removeFd, hfind] at h1
  dsimp only at h1
  rw [entries_getElem, getElem_eraseIdx]
  by_cases hij : j < i
  · rw [dif_pos hij, entries_getElem]
    simp only [PollTable.entryAt, removeFd, hfind, closeGap]
    rw [if_neg (by omega), if_neg (by omega)]
  rw [dif_neg hij, entries_getElem]
  simp only [PollTable.entryAt, removeFd, hfind, closeGap]
  rw [if_pos (by omega), if_pos (by omega)]

lemma entries_optPoll (i : Nat) (t : PollTable) : (optPoll i t).entries.Perm t.entries := by
  rw [optPoll]
  split
  case isFalse => exact Perm.refl _
  case isTrue hc =>
    have hentry : ∀ j, (PollTable.entryAt
        { t with
          fds := swapAt t.fds i (i - 1)
          fdpp := swapAt t.fdpp i (i - 1)
          fdperm := update (update t.fdperm (swapAt t.fds i (i - 1) i).fd (toShort i))
            (swapAt t.fds i (i - 1) (i - 1)).fd (toShort (i - 1)) } j) =
        t.entryAt (Equiv.swap i (i - 1) j) := by
      intro j
      simp only [PollTable.entryAt, swapAt_eq, comp_apply]
    have hrange : ((range t.nfds).map (Equiv.swap i (i - 1))).Perm (range t.nfds) := by
      refine (perm_ext_iff_of_nodup (Nodup.map (Equiv.injective _) nodup_range)
        nodup_range).mpr ?_
      intro j
      have hside : ∀ k, k < t.nfds → Equiv.swap i (i - 1) k < t.nfds := by
        intro k hk
        rw [Equiv.swap_apply_def]
        split
        · omega
        split
        · omega
        · exact hk
      rw [mem_map, mem_range]
      constructor
      · rintro ⟨k, hk, rfl⟩
        exact hside k (mem_range.mp hk)
      intro hj
      exact ⟨Equiv.swap i (i - 1) j, mem_range.mpr (hside j hj), Equiv.swap_apply_self _ _ _⟩
    dsimp only [PollTable.entries]
    have hmap : ((range t.nfds).map (Equiv.swap i (i - 1))).map t.entryAt =
        (range t.nfds).map (fun j => t.entryAt (Equiv.swap i (i - 1) j)) := by
      rw [map_map]
      rfl
    rw [map_congr_left (fun j _ => hentry j), ← hmap]
    exact hrange.map _

def HasMask (t : PollTable) (fd : Nat) (events : BitVec 16) : Prop :=
  ∃ e ∈ t.entries, e.fd = fd ∧ e.events = events

def IndexRight (t : PollTable) (fd : Nat) : Prop :=
  ∃ i < t.nfds, (t.fds i).fd = fd ∧ t.fdperm fd = i

lemma findFd_none_of_new (h : ∀ i < t.nfds, (t.fds i).fd ≠ fd) : fd ∉ t.entries.map PollEntry.fd := by
  intro hmem
  obtain ⟨e, he, rfl⟩ := mem_map.mp hmem
  obtain ⟨i, hi, rfl⟩ := mem_entries.mp he
  exact h i hi rfl

lemma pollBag_addFd (h : PollBag t) {a : Nat} (type : BitVec 8) (privateData : Nat)
    (hfd : ∀ i < t.nfds, (t.fds i).fd ≠ fd) (ha : t.pp a = none) : PollBag (addFd fd type privateData a t) := by
  have hpp : (addFd fd type privateData a t).pp = update t.pp a (some ⟨type, privateData, 0⟩) := rfl
  have hne : ∀ e ∈ t.entries, e.record ≠ a := by
    intro e he heq
    exact h.live e he (by rw [heq, ha])
  refine .of_perm (entries_addFd h.prio_le fd type privateData a) ?_ ?_ ?_ ?_
  · rw [map_cons, nodup_cons]
    exact ⟨findFd_none_of_new hfd, h.fds⟩
  · rw [map_cons, nodup_cons]
    refine ⟨?_, h.records⟩
    intro hmem
    obtain ⟨e, he, heq⟩ := mem_map.mp hmem
    exact hne e he heq
  · intro e he
    rw [hpp]
    rcases mem_cons.mp he with rfl | he
    · simp
    rw [update_of_ne (hne e he)]
    exact h.live e he
  · have hold : t.entries.countP (fun e => prioRecord (addFd fd type privateData a t).pp e.record) =
        t.entries.countP (fun e => prioRecord t.pp e.record) := by
      apply countP_congr
      intro e he
      rw [hpp, prioRecord, prioRecord, update_of_ne (hne e he)]
    rw [countP_cons, hold, ← h.prio]
    have hnew : prioRecord (addFd fd type privateData a t).pp a = isPrio type := by
      rw [hpp, prioRecord, update_self]
      rfl
    simp only [hnew]
    by_cases hp : isPrio type = true
    · simp [addFd, hp]
    · simp [addFd, hp]

variable {fd' : Nat} {events : BitVec 16}

lemma hasMask_addFd (h : PollBag t) (fd : Nat) (type : BitVec 8) (privateData a : Nat)
    (hm : HasMask t fd' events) : HasMask (addFd fd type privateData a t) fd' events := by
  obtain ⟨e, he, hfd, hev⟩ := hm
  exact ⟨e, (entries_addFd h.prio_le fd type privateData a).mem_iff.mpr (mem_cons_of_mem _ he), hfd, hev⟩

lemma hasMask_addFd_self (h : PollBag t) (fd : Nat) (type : BitVec 8)
    (privateData a : Nat) : HasMask (addFd fd type privateData a t) fd pollInHup :=
  ⟨_, (entries_addFd h.prio_le fd type privateData a).mem_iff.mpr mem_cons_self, rfl, rfl⟩

lemma pollBag_removeFd (h : PollBag t) (fd : Nat) : PollBag (removeFd fd t) := by
  cases hfind : findFd t fd with
  | none =>
    rw [removeFd, hfind]
    exact h
  | some i =>
    have hi := (findFd_eq_some hfind).1
    have hlen : i < t.entries.length := by
      rw [entries_length]
      exact hi
    have hentries := entries_removeFd hfind
    have hpp : (removeFd fd t).pp = update t.pp (t.fdpp i) none := by
      rw [removeFd, hfind]
    have hsub : (t.entries.eraseIdx i).Sublist t.entries := eraseIdx_sublist _ _
    have hperm : (t.entries[i] :: t.entries.eraseIdx i).Perm t.entries :=
      getElem_cons_eraseIdx_perm hlen
    have hrec : t.entries[i].record = t.fdpp i := by rw [entries_getElem]; rfl
    -- the record that is freed belongs to no other element
    have hne : ∀ e ∈ t.entries.eraseIdx i, e.record ≠ t.fdpp i := by
      intro e he heq
      have hnodup := (hperm.map PollEntry.record).nodup_iff.mpr h.records
      rw [map_cons, nodup_cons] at hnodup
      exact hnodup.1 (mem_map.mpr ⟨e, he, by rw [heq, hrec]⟩)
    refine .of_perm (by rw [hentries]) (h.fds.sublist (hsub.map _)) (h.records.sublist (hsub.map _)) ?_ ?_
    · intro e he
      rw [hpp, update_of_ne (hne e he)]
      exact h.live e (hsub.mem he)
    have hold : (t.entries.eraseIdx i).countP (fun e => prioRecord (removeFd fd t).pp e.record) =
        (t.entries.eraseIdx i).countP (fun e => prioRecord t.pp e.record) := by
      apply countP_congr
      intro e he
      rw [hpp, prioRecord, prioRecord, update_of_ne (hne e he)]
    have hcount := hperm.countP_eq (fun e => prioRecord t.pp e.record)
    rw [countP_cons, ← h.prio, hrec] at hcount
    have hnprio : (removeFd fd t).nprio = if prioRecord t.pp (t.fdpp i) then t.nprio - 1 else t.nprio := by
      rw [removeFd, hfind]
      rfl
    rw [hold, hnprio]
    by_cases hp : prioRecord t.pp (t.fdpp i) = true
    · rw [if_pos hp] at hcount ⊢
      omega
    rw [if_neg hp] at hcount ⊢
    omega

lemma hasMask_removeFd (hm : HasMask t fd' events) (hne : fd' ≠ fd) : HasMask (removeFd fd t) fd' events := by
  cases hfind : findFd t fd with
  | none =>
    rw [removeFd, hfind]
    exact hm
  | some i =>
    obtain ⟨hi, hfd⟩ := findFd_eq_some hfind
    have hlen : i < t.entries.length := by
      rw [entries_length]
      exact hi
    obtain ⟨e, he, rfl, rfl⟩ := hm
    have hperm : (t.entries[i] :: t.entries.eraseIdx i).Perm t.entries :=
      getElem_cons_eraseIdx_perm hlen
    refine ⟨e, ?_, rfl, rfl⟩
    rw [entries_removeFd hfind]
    rcases mem_cons.mp (hperm.mem_iff.mpr he) with heq | hmem
    · rw [heq, entries_getElem] at hne
      exact absurd hfd hne
    · exact hmem

lemma pollBag_of_frame (h : PollBag t) (hperm : t'.entries.Perm t.entries) (hnprio : t'.nprio = t.nprio)
    (hpp : ∀ a, (t'.pp a).map PollPlus.type = (t.pp a).map PollPlus.type) : PollBag t' := by
  have hprio : ∀ a, prioRecord t'.pp a = prioRecord t.pp a := by
    intro a
    have ha := congrArg (fun o : Option (BitVec 8) => o.any isPrio) (hpp a)
    simpa [prioRecord, Option.any_map, comp_def] using ha
  refine .of_perm hperm h.fds h.records ?_ ?_
  · intro e he hnone
    have ha := hpp e.record
    rw [hnone, Option.map_none, eq_comm, Option.map_eq_none_iff] at ha
    exact h.live e he ha
  rw [hnprio, h.prio]
  apply countP_congr
  intro e _
  rw [hprio]

lemma hasMask_of_perm (hperm : t'.entries.Perm t.entries) (hm : HasMask t fd events) : HasMask t' fd events := by
  obtain ⟨e, he, hfd, hev⟩ := hm
  exact ⟨e, hperm.mem_iff.mpr he, hfd, hev⟩

lemma entries_pollmask (h : PollBag t) (hidx : IndexRight t fd)
    (f : BitVec 16 → BitVec 16) :
    (mainloopPollmask f fd t).entries =
      t.entries.map (fun e => if e.fd = fd then { e with events := f e.events } else e) := by
  obtain ⟨i, hi, hfd, hperm⟩ := hidx
  have hinj : ∀ j < t.nfds, (t.fds j).fd = fd → j = i := by
    intro j hj hjfd
    have hnodup := h.fds
    rw [PollTable.entries, map_map, nodup_map_iff_inj_on nodup_range] at hnodup
    refine hnodup j (mem_range.mpr hj) i (mem_range.mpr hi) ?_
    exact hjfd.trans hfd.symm
  rw [PollTable.entries, PollTable.entries, map_map]
  apply map_congr_left
  intro j hj
  rw [mem_range] at hj
  have htoNat : (t.fdperm fd).toNat = i := by
    rw [hperm]
    exact Int.toNat_natCast i
  rw [comp_apply]
  by_cases hji : j = i
  · subst hji
    rw [if_pos (show (t.entryAt j).fd = fd from hfd)]
    simp [PollTable.entryAt, mainloopPollmask, htoNat]
  rw [if_neg (show ¬(t.entryAt j).fd = fd from fun hjfd => hji (hinj j hj hjfd))]
  simp [PollTable.entryAt, mainloopPollmask, htoNat, hji]

lemma pollBag_pollmask (h : PollBag t) (f : BitVec 16 → BitVec 16) (fd : Nat) :
    PollBag (mainloopPollmask f fd t) := by
  have hsame : ∀ g : PollEntry → Nat, (∀ i, g ((mainloopPollmask f fd t).entryAt i) = g (t.entryAt i)) →
      (mainloopPollmask f fd t).entries.map g = t.entries.map g := by
    intro g hg
    rw [PollTable.entries, PollTable.entries, map_map, map_map]
    apply map_congr_left
    intro i _
    exact hg i
  have hfd : ∀ i, ((mainloopPollmask f fd t).entryAt i).fd = (t.entryAt i).fd := by
    intro i
    simp only [PollTable.entryAt, mainloopPollmask]
    by_cases hi : i = (t.fdperm fd).toNat
    · subst hi
      rw [update_self]
    · rw [update_of_ne hi]
  have hrec : ∀ i, ((mainloopPollmask f fd t).entryAt i).record = (t.entryAt i).record := fun _ => rfl
  have hrecords := hsame PollEntry.record hrec
  refine ⟨by rw [hsame _ hfd]; exact h.fds, by rw [hrecords]; exact h.records, ?_, ?_⟩
  · intro e he
    obtain ⟨i, hi, rfl⟩ := mem_entries.mp he
    exact h.live (t.entryAt i) (mem_entries.mpr ⟨i, hi, rfl⟩)
  have hcount : ∀ l : List PollEntry, l.countP (fun e => prioRecord t.pp e.record) =
      (l.map PollEntry.record).countP (prioRecord t.pp) := by
    intro l
    rw [countP_map]
    rfl
  have hpp : (mainloopPollmask f fd t).pp = t.pp := rfl
  rw [hpp, hcount, hrecords, ← hcount]
  exact h.prio

lemma hasMask_pollmask (h : PollBag t)
    (hidx : IndexRight t fd) (f : BitVec 16 → BitVec 16) (hm : HasMask t fd' events) :
    HasMask (mainloopPollmask f fd t) fd' (if fd' = fd then f events else events) := by
  obtain ⟨e, he, rfl, rfl⟩ := hm
  refine ⟨_, by rw [entries_pollmask h hidx f]; exact mem_map.mpr ⟨e, he, rfl⟩, ?_, ?_⟩
  · split <;> rfl
  · split <;> rfl

lemma optPoll_frame (i : Nat) (t : PollTable) :
    (optPoll i t).nprio = t.nprio ∧ (optPoll i t).pp = t.pp ∧ (optPoll i t).fdpermsize = t.fdpermsize := by
  rw [optPoll]
  split <;> exact ⟨rfl, rfl, rfl⟩

def PollOp.Fresh (t : PollTable) : PollOp → Prop
  | .addFd fd _ _ a => (∀ i < t.nfds, (t.fds i).fd ≠ fd) ∧ t.pp a = none
  | _ => True

lemma pollBag_apply {t : PollTable} (h : PollBag t) {op : PollOp} (hfresh : op.Fresh t) : PollBag (op.apply t) := by
  cases op with
  | addFd fd type privateData a => exact pollBag_addFd h type privateData hfresh.1 hfresh.2
  | removeFd fd => exact pollBag_removeFd h fd
  | optPoll i =>
    obtain ⟨hnprio, hpp, -⟩ := optPoll_frame i t
    refine pollBag_of_frame h (entries_optPoll i t) hnprio ?_
    intro a
    rw [PollOp.apply, hpp]
  | stampReady i now =>
    exact pollBag_of_frame h (Perm.refl _) rfl (record_update_type _ _ _ (fun _ => rfl))
  | pollResult revents => exact pollBag_of_frame h (Perm.refl _) rfl (fun _ => rfl)
  | setPrivateData fd privateData =>
    rw [PollOp.apply, mainloopSetPrivateData]
    split
    · exact pollBag_of_frame h (Perm.refl _) rfl (record_update_type _ _ _ (fun _ => rfl))
    · exact h
  | pollmask f fd => exact pollBag_pollmask h f fd

lemma HasMask.unique (h : PollBag t) {events' : BitVec 16}
    (hm : HasMask t fd events) (hm' : HasMask t fd events') : events = events' := by
  obtain ⟨e, he, rfl, rfl⟩ := hm
  obtain ⟨e', he', hfd, rfl⟩ := hm'
  rw [inj_on_of_nodup_map h.fds he' he hfd]

end Vde
