import Vde.Proofs.PollMasks

/-!
# The records of the descriptors

Which type and which private data a registered descriptor has, after each operation of the
descriptor management. `mainloop_set_private_data` finds the record through `fdperm`, so it needs
the index of the descriptor; the others do not.
-/

namespace Vde

open List Function

def HasRecord (t : PollTable) (fd : Nat) (type : BitVec 8) (privateData : Nat) : Prop :=
  ∃ e ∈ t.entries, e.fd = fd ∧ ∃ r, t.pp e.record = some r ∧ r.type = type ∧ r.privateData = privateData

section

variable {t t' : PollTable} {fd fd' privateData privateData' a : Nat} {type type' : BitVec 8}

lemma hasRecord_at {i : Nat} (hi : i < t.nfds) {r : PollPlus} (hr : t.pp (t.fdpp i) = some r) :
    HasRecord t (t.fds i).fd r.type r.privateData :=
  ⟨t.entryAt i, mem_entries.mpr ⟨i, hi, rfl⟩, rfl, r, hr, rfl, rfl⟩

lemma HasRecord.index (h : HasRecord t fd type privateData) : ∃ i < t.nfds, (t.fds i).fd = fd := by
  obtain ⟨e, he, rfl, -⟩ := h
  obtain ⟨i, hi, rfl⟩ := mem_entries.mp he
  exact ⟨i, hi, rfl⟩

lemma HasRecord.unique (hbag : PollBag t) (h : HasRecord t fd type privateData)
    (h' : HasRecord t fd type' privateData') : type = type' ∧ privateData = privateData' := by
  obtain ⟨e, he, rfl, r, hr, rfl, rfl⟩ := h
  obtain ⟨e', he', hfd, r', hr', rfl, rfl⟩ := h'
  rw [inj_on_of_nodup_map hbag.fds he' he hfd, hr] at hr'
  obtain rfl := Option.some.inj hr'
  exact ⟨rfl, rfl⟩

lemma PollOp.Fresh.ne (hfresh : (PollOp.addFd fd type privateData a).Fresh t)
    (h : HasRecord t fd' type' privateData') : fd' ≠ fd := by
  obtain ⟨i, hi, hfd⟩ := h.index
  rw [← hfd]
  exact hfresh.1 i hi

lemma hasRecord_addFd (hbag : PollBag t) (ha : t.pp a = none) :
    HasRecord (addFd fd type privateData a t) fd' type' privateData' ↔
    (fd' = fd ∧ type' = type ∧ privateData' = privateData) ∨ HasRecord t fd' type' privateData' := by
  have hperm := entries_addFd hbag.prio_le fd type privateData a
  have hpp : (addFd fd type privateData a t).pp = update t.pp a (some ⟨type, privateData, 0⟩) := rfl
  have hne : ∀ e ∈ t.entries, e.record ≠ a := by
    intro e he heq
    exact hbag.live e he (by rw [heq, ha])
  constructor
  · rintro ⟨e, he, rfl, r, hr, rfl, rfl⟩
    rw [hpp] at hr
    rcases mem_cons.mp (hperm.mem_iff.mp he) with rfl | he
    · rw [update_self] at hr
      obtain rfl := Option.some.inj hr
      exact .inl ⟨rfl, rfl, rfl⟩
    rw [update_of_ne (hne e he)] at hr
    exact .inr ⟨e, he, rfl, r, hr, rfl, rfl⟩
  rintro (⟨rfl, rfl, rfl⟩ | ⟨e, he, rfl, r, hr, rfl, rfl⟩)
  · exact ⟨_, hperm.mem_iff.mpr mem_cons_self, rfl, _, by rw [hpp, update_self], rfl, rfl⟩
  refine ⟨e, hperm.mem_iff.mpr (mem_cons_of_mem _ he), rfl, r, ?_, rfl, rfl⟩
  rw [hpp, update_of_ne (hne e he)]
  exact hr

lemma hasRecord_removeFd (hbag : PollBag t) :
    HasRecord (removeFd fd t) fd' type' privateData' ↔ fd' ≠ fd ∧ HasRecord t fd' type' privateData' := by
  cases hfind : findFd t fd with
  | none =>
    have hnone := findFd_eq_none hfind
    rw [removeFd, hfind]
    dsimp only
    constructor
    · intro h
      obtain ⟨i, hi, rfl⟩ := h.index
      exact ⟨hnone i hi, h⟩
    · exact fun h => h.2
  | some i =>
    obtain ⟨hi, hfd⟩ := findFd_eq_some hfind
    have hlen : i < t.entries.length := by
      rw [entries_length]
      exact hi
    have hperm : (t.entries[i] :: t.entries.eraseIdx i).Perm t.entries :=
      getElem_cons_eraseIdx_perm hlen
    have hentry : t.entries[i] = t.entryAt i := entries_getElem t i hlen
    -- neither the descriptor nor the record occurs a second time
    have hfds := (hperm.map PollEntry.fd).nodup_iff.mpr hbag.fds
    have hrecords := (hperm.map PollEntry.record).nodup_iff.mpr hbag.records
    rw [map_cons, nodup_cons, hentry] at hfds hrecords
    have hother : ∀ e ∈ t.entries.eraseIdx i, e.fd ≠ fd ∧ e.record ≠ t.fdpp i := by
      intro e he
      refine ⟨?_, ?_⟩
      · intro heq
        exact hfds.1 (mem_map.mpr ⟨e, he, heq.trans hfd.symm⟩)
      intro heq
      exact hrecords.1 (mem_map.mpr ⟨e, he, heq⟩)
    have hpp : (removeFd fd t).pp = update t.pp (t.fdpp i) none := by rw [removeFd, hfind]
    rw [HasRecord, entries_removeFd hfind, hpp]
    constructor
    · rintro ⟨e, he, rfl, r, hr, rfl, rfl⟩
      rw [update_of_ne (hother e he).2] at hr
      exact ⟨(hother e he).1, e, (eraseIdx_sublist _ _).mem he, rfl, r, hr, rfl, rfl⟩
    rintro ⟨hne, e, he, rfl, r, hr, rfl, rfl⟩
    rcases mem_cons.mp (hperm.mem_iff.mpr he) with heq | hmem
    · rw [heq, hentry] at hne
      exact absurd hfd hne
    refine ⟨e, hmem, rfl, r, ?_, rfl, rfl⟩
    rw [update_of_ne (hother e hmem).2]
    exact hr

lemma hasRecord_of_frame
    (hperm : (t'.entries.map (fun e => (e.fd, e.record))).Perm (t.entries.map (fun e => (e.fd, e.record))))
    (hpp : ∀ a, (t'.pp a).map (fun r => (r.type, r.privateData)) = (t.pp a).map (fun r => (r.type, r.privateData)))
    (h : HasRecord t fd type privateData) : HasRecord t' fd type privateData := by
  obtain ⟨e, he, rfl, r, hr, rfl, rfl⟩ := h
  have hmem : (e.fd, e.record) ∈ t'.entries.map (fun e => (e.fd, e.record)) :=
    hperm.mem_iff.mpr (mem_map.mpr ⟨e, he, rfl⟩)
  obtain ⟨e', he', heq⟩ := mem_map.mp hmem
  obtain ⟨hfd, hrecord⟩ := Prod.mk.inj heq
  have hval := hpp e.record
  rw [hr, Option.map_some, Option.map_eq_some_iff] at hval
  obtain ⟨r', hr', heq'⟩ := hval
  obtain ⟨htype, hdata⟩ := Prod.mk.inj heq'
  exact ⟨e', he', hfd, r', by rw [hrecord]; exact hr', htype, hdata⟩

lemma entries_pollmask_records (f : BitVec 16 → BitVec 16) (fd : Nat) (t : PollTable) :
    (mainloopPollmask f fd t).entries.map (fun e => (e.fd, e.record)) =
    t.entries.map (fun e => (e.fd, e.record)) := by
  rw [PollTable.entries, PollTable.entries, map_map, map_map]
  apply map_congr_left
  intro i _
  simp only [comp_apply, PollTable.entryAt, mainloopPollmask]
  by_cases hi : i = (t.fdperm fd).toNat
  · subst hi
    rw [update_self]
  · rw [update_of_ne hi]

lemma hasRecord_apply (hbag : PollBag t) {op : PollOp} (hfresh : op.Fresh t)
    (hset : ∀ fd privateData, op ≠ .setPrivateData fd privateData) :
    HasRecord (op.apply t) fd type privateData ↔
      match op with
      | .addFd fd' type' privateData' _ =>
        (fd = fd' ∧ type = type' ∧ privateData = privateData') ∨ HasRecord t fd type privateData
      | .removeFd fd' => fd ≠ fd' ∧ HasRecord t fd type privateData
      | _ => HasRecord t fd type privateData := by
  have hiff : ∀ {t' : PollTable},
      (t'.entries.map (fun e => (e.fd, e.record))).Perm (t.entries.map (fun e => (e.fd, e.record))) →
      (∀ a, (t'.pp a).map (fun r => (r.type, r.privateData)) =
        (t.pp a).map (fun r => (r.type, r.privateData))) →
      (HasRecord t' fd type privateData ↔ HasRecord t fd type privateData) := by
    intro t' hperm hpp
    exact ⟨hasRecord_of_frame hperm.symm (fun a => (hpp a).symm), hasRecord_of_frame hperm hpp⟩
  cases op with
  | addFd fd' type' privateData' a => exact hasRecord_addFd hbag hfresh.2
  | removeFd fd' => exact hasRecord_removeFd hbag
  | optPoll i =>
    refine hiff ((entries_optPoll i t).map _) ?_
    intro a
    rw [PollOp.apply, (optPoll_frame i t).2.1]
  | stampReady i now =>
    refine hiff (Perm.refl _) ?_
    intro a
    simp only [PollOp.apply, stampReady]
    by_cases ha : a = t.fdpp i
    · subst ha
      rw [update_self, Option.map_map]
      rfl
    · rw [update_of_ne ha]
  | pollResult revents => exact hiff (Perm.refl _) (fun _ => rfl)
  | setPrivateData fd' privateData' => exact absurd rfl (hset fd' privateData')
  | pollmask f fd' =>
    refine hiff ?_ (fun _ => rfl)
    rw [PollOp.apply, entries_pollmask_records]

def PollSized (t : PollTable) : Prop := ∀ e ∈ t.entries, e.fd < t.fdpermsize

lemma HasRecord.sized (hsize : PollSized t) (h : HasRecord t fd type privateData) : fd < t.fdpermsize := by
  obtain ⟨e, he, rfl, -⟩ := h
  exact hsize e he

lemma pollSized_of_fds (hsize : PollSized t) (hle : t.fdpermsize ≤ t'.fdpermsize)
    (hsub : ∀ e' ∈ t'.entries, ∃ e ∈ t.entries, e.fd = e'.fd) : PollSized t' := by
  intro e' he'
  obtain ⟨e, he, hfd⟩ := hsub e' he'
  rw [← hfd]
  exact Nat.lt_of_lt_of_le (hsize e he) hle

lemma pollSized_apply (hbag : PollBag t) (hsize : PollSized t) (op : PollOp) : PollSized (op.apply t) := by
  cases op with
  | addFd fd type privateData a =>
    intro e he
    have hle : t.fdpermsize ≤ (addFd fd type privateData a t).fdpermsize ∧
        fd < (addFd fd type privateData a t).fdpermsize := by
      simp only [addFd, Nat.shiftRight_eq_div_pow, Nat.shiftLeft_eq]
      split <;> omega
    rcases mem_cons.mp ((entries_addFd hbag.prio_le fd type privateData a).mem_iff.mp he) with rfl | he
    · exact hle.2
    · exact Nat.lt_of_lt_of_le (hsize e he) hle.1
  | removeFd fd =>
    cases hfind : findFd t fd with
    | none =>
      rw [PollOp.apply, removeFd, hfind]
      exact hsize
    | some i =>
      have hperm : (removeFd fd t).fdpermsize = t.fdpermsize := by rw [removeFd, hfind]
      refine pollSized_of_fds hsize (Nat.le_of_eq hperm.symm) ?_
      intro e he
      rw [PollOp.apply, entries_removeFd hfind] at he
      exact ⟨e, (eraseIdx_sublist _ _).mem he, rfl⟩
  | optPoll i =>
    refine pollSized_of_fds hsize (Nat.le_of_eq (optPoll_frame i t).2.2.symm) ?_
    intro e he
    exact ⟨e, (entries_optPoll i t).mem_iff.mp he, rfl⟩
  | stampReady i now => exact hsize
  | pollResult revents => exact hsize
  | setPrivateData fd privateData =>
    rw [PollOp.apply, mainloopSetPrivateData]
    split
    · exact hsize
    · exact hsize
  | pollmask f fd =>
    refine pollSized_of_fds hsize (Nat.le_refl _) ?_
    intro e he
    have hmem := mem_map_of_mem (f := fun e : PollEntry => (e.fd, e.record)) he
    rw [PollOp.apply, entries_pollmask_records] at hmem
    obtain ⟨e', he', heq⟩ := mem_map.mp hmem
    exact ⟨e', he', (Prod.mk.inj heq).1⟩

lemma hasRecord_setPrivateData (hbag : PollBag t) (hidx : IndexRight t fd) (hsize : fd < t.fdpermsize) :
    HasRecord (mainloopSetPrivateData fd privateData t) fd' type' privateData' ↔ if fd' = fd then privateData' =
    privateData ∧ ∃ old, HasRecord t fd type' old else HasRecord t fd' type' privateData' := by
  obtain ⟨i, hi, hfd, hindex⟩ := hidx
  have htoNat : (t.fdperm fd).toNat = i := by
    rw [hindex]
    exact Int.toNat_natCast i
  have hentries : (mainloopSetPrivateData fd privateData t).entries = t.entries := by
    rw [mainloopSetPrivateData, if_pos hsize]
    rfl
  have hpp : (mainloopSetPrivateData fd privateData t).pp = update t.pp (t.fdpp i)
      ((t.pp (t.fdpp i)).map (fun r => { r with privateData := privateData })) := by
    rw [mainloopSetPrivateData, if_pos hsize, htoNat]
  -- the record at the index is the record of the descriptor, and of no other one
  have hown : ∀ e ∈ t.entries, e.record = t.fdpp i ↔ e.fd = fd := by
    intro e he
    have hmem : t.entryAt i ∈ t.entries := mem_entries.mpr ⟨i, hi, rfl⟩
    constructor
    · intro heq
      rw [inj_on_of_nodup_map hbag.records he hmem heq]
      exact hfd
    intro heq
    rw [inj_on_of_nodup_map hbag.fds he hmem (heq.trans hfd.symm)]
    rfl
  rw [HasRecord, hentries, hpp]
  by_cases hne : fd' = fd
  · subst hne
    rw [if_pos rfl]
    constructor
    · rintro ⟨e, he, hefd, r, hr, rfl, rfl⟩
      rw [(hown e he).mpr hefd, update_self, Option.map_eq_some_iff] at hr
      obtain ⟨r', hr', rfl⟩ := hr
      exact ⟨rfl, r'.privateData, e, he, hefd, r', by rw [(hown e he).mpr hefd]; exact hr', rfl, rfl⟩
    rintro ⟨rfl, old, e, he, hefd, r, hr, rfl, rfl⟩
    rw [(hown e he).mpr hefd] at hr
    refine ⟨e, he, hefd, { r with privateData := privateData' }, ?_, rfl, rfl⟩
    rw [(hown e he).mpr hefd, update_self, hr, Option.map_some]
  rw [if_neg hne]
  have hother : ∀ e ∈ t.entries, e.fd = fd' → e.record ≠ t.fdpp i := by
    intro e he hefd heq
    exact hne (hefd.symm.trans ((hown e he).mp heq))
  constructor
  · rintro ⟨e, he, hefd, r, hr, rfl, rfl⟩
    rw [update_of_ne (hother e he hefd)] at hr
    exact ⟨e, he, hefd, r, hr, rfl, rfl⟩
  rintro ⟨e, he, hefd, r, hr, rfl, rfl⟩
  refine ⟨e, he, hefd, r, ?_, rfl, rfl⟩
  rw [update_of_ne (hother e he hefd)]
  exact hr

lemma indexRight_addFd {i : Nat} (hi : i < t.nfds) (hfd : (t.fds i).fd = fd') (hindex : t.fdperm fd' = i)
    (hprio : i ≠ t.nprio) (hne : fd' ≠ fd) : IndexRight (addFd fd type privateData a t) fd' := by
  have hlast : i ≠ t.nfds := Nat.ne_of_lt hi
  refine ⟨i, Nat.lt_succ_of_lt hi, ?_, ?_⟩
  · by_cases hp : isPrio type = true
    · simp [addFd, hp, hlast, hprio, hfd]
    · simp [addFd, hp, hlast, hfd]
  · simp [addFd, hne, hindex]

end

end Vde
