import Vde.CabPoll

/-!
# The poll set of the cable

The entries of `pfd` that are filled in are those of the peers with a connection, in the order of the list. But `poll`
gets as many entries as there are peers.
-/

namespace Vde

open List Function

def CabPoller.pollSet (datafd : CabAddr → Nat) (nfd : Nat) (s : CabPoller) : List CabPeer × CabPollSet :=
  populatePoll datafd s.list 1 (cabPollStart nfd)

def EntriesRight (datafd : CabAddr → Nat) (nfd : Nat) (s : CabPoller) : Prop :=
  ∀ k, 1 ≤ k → k ≤ s.list.length → ∃ p, (s.pollSet datafd nfd).2.peerlist k = some p ∧ p.plug = true ∧
    (s.pollSet datafd nfd).2.pfd k = some (p.pollEntry datafd)

def OneEach (datafd : CabAddr → Nat) (nfd : Nat) (s : CabPoller) : Prop :=
  (range' 1 s.list.length).filterMap (s.pollSet datafd nfd).2.pfd =
    ((s.pollSet datafd nfd).1.filter CabPeer.plug).map (CabPeer.pollEntry datafd)

def NextIndexRight (datafd : CabAddr → Nat) (nfd : Nat) (s : CabPoller) : Prop :=
  ∀ polled now, (recvPolled datafd nfd polled now s).1 ≠ .outside

structure PollSetRight (datafd : CabAddr → Nat) (nfd : Nat) (s : CabPoller) : Prop where
  entries : EntriesRight datafd nfd s
  oneEach : OneEach datafd nfd s
  index : NextIndexRight datafd nfd s

section Fill

variable (datafd : CabAddr → Nat)

lemma populatePoll_list (list : List CabPeer) (index : Nat) (t : CabPollSet) :
    (populatePoll datafd list index t).1 = populatePeerlist list := by
  induction list generalizing index t with
  | nil => rfl
  | cons iter next ih =>
    rw [populatePoll, populatePeerlist, map_cons, ← populatePeerlist]
    dsimp only
    by_cases hplug : iter.plug = true
    · rw [if_pos hplug, if_neg (by rw [hplug]; simp), ih]
    rw [if_neg hplug]
    by_cases hauth : iter.state = .auth
    · rw [if_pos hauth, if_pos ⟨Bool.eq_false_iff.mpr hplug, hauth⟩, ih]
    · rw [if_neg hauth, if_neg (fun h => hauth h.2), ih]

/-- The same copies as the server makes. -/
lemma populatePoll_peerlist (list : List CabPeer) (index : Nat) (t : CabPollSet) :
    (populatePoll datafd list index t).2.peerlist = copyPeers list index t.peerlist := by
  induction list generalizing index t with
  | nil => rfl
  | cons iter next ih =>
    rw [populatePoll, copyPeers]
    dsimp only
    split_ifs
    · exact ih _ _
    · exact ih _ _
    · exact ih _ _

variable {iter p : CabPeer} {next list : List CabPeer} {index j k : Nat} {t : CabPollSet}

lemma populatePoll_plugged (hplug : iter.plug = true) :
    (populatePoll datafd (iter :: next) index t).2 = (populatePoll datafd next (index + 1)
      ⟨update t.pfd index (some (iter.pollEntry datafd)), update t.peerlist index (some iter)⟩).2 := by
  rw [populatePoll]
  dsimp only
  rw [if_pos hplug]

lemma populatePoll_skipped (hplug : ¬iter.plug = true) : (populatePoll datafd (iter :: next) index t).2 =
    (populatePoll datafd next index ⟨t.pfd, update t.peerlist index (some iter)⟩).2 := by
  rw [populatePoll]
  dsimp only
  rw [if_neg hplug]
  split
  · rfl
  · rfl

lemma populatePoll_other (hk : k < index ∨ index + (list.filter CabPeer.plug).length ≤ k) :
    (populatePoll datafd list index t).2.pfd k = t.pfd k := by
  induction list generalizing index t with
  | nil => rfl
  | cons iter next ih =>
    by_cases hplug : iter.plug = true
    · rw [filter_cons_of_pos hplug, length_cons] at hk
      rw [populatePoll_plugged datafd hplug, ih (by omega)]
      exact update_of_ne (by omega) _ _
    rw [filter_cons_of_neg hplug] at hk
    rw [populatePoll_skipped datafd hplug, ih hk]

lemma populatePoll_copies (hk : k < index) : (populatePoll datafd list index t).2.peerlist k = t.peerlist k := by
  induction list generalizing index t with
  | nil => rfl
  | cons iter next ih =>
    have hcopy : update t.peerlist index (some iter) k = t.peerlist k :=
      update_of_ne (Nat.ne_of_lt hk) _ _
    by_cases hplug : iter.plug = true
    · rw [populatePoll_plugged datafd hplug, ih (Nat.lt_succ_of_lt hk)]
      exact hcopy
    rw [populatePoll_skipped datafd hplug, ih hk]
    exact hcopy

lemma populatePoll_at (hp : (list.filter CabPeer.plug)[j]? = some p) :
    (populatePoll datafd list index t).2.pfd (index + j) = some (p.pollEntry datafd) ∧
    (populatePoll datafd list index t).2.peerlist (index + j) = some p := by
  induction list generalizing index j t with
  | nil => cases hp
  | cons iter next ih =>
    by_cases hplug : iter.plug = true
    · rw [filter_cons_of_pos hplug] at hp
      rw [populatePoll_plugged datafd hplug]
      cases j with
      | zero =>
        cases hp
        constructor
        · exact (populatePoll_other datafd (.inl (Nat.lt_succ_self index))).trans (update_self _ _ _)
        · exact (populatePoll_copies datafd (Nat.lt_succ_self index)).trans (update_self _ _ _)
      | succ j =>
        rw [getElem?_cons_succ] at hp
        rw [← Nat.add_assoc, Nat.add_right_comm]
        exact ih hp
    rw [filter_cons_of_neg hplug] at hp
    rw [populatePoll_skipped datafd hplug]
    exact ih hp

end Fill

section Parts

variable (datafd : CabAddr → Nat) (nfd : Nat) {s : CabPoller}

lemma filterMap_entries {α β : Type} (f : Nat → Option β) (g : α → β) {l : List α} {index : Nat}
    (h : ∀ j a, l[j]? = some a → f (index + j) = some (g a)) : (range' index l.length).filterMap f = l.map g := by
  induction l generalizing index with
  | nil => rfl
  | cons a l ih =>
    have hfirst : f index = some (g a) := h 0 a rfl
    rw [length_cons, range'_succ, filterMap_cons_some hfirst, map_cons]
    congr 1
    apply ih
    intro j b hb
    rw [Nat.succ_add, ← Nat.add_succ]
    exact h (j + 1) b hb

lemma pollSet_unfilled {k : Nat} (hk : 1 + (s.list.filter CabPeer.plug).length ≤ k) :
    (s.pollSet datafd nfd).2.pfd k = none := by
  rw [CabPoller.pollSet, populatePoll_other datafd (.inr hk)]
  exact if_neg (by omega)

lemma pollSet_filled : (range' 1 s.list.length).filterMap (s.pollSet datafd nfd).2.pfd =
    (s.list.filter CabPeer.plug).map (CabPeer.pollEntry datafd) := by
  have hle : (s.list.filter CabPeer.plug).length ≤ s.list.length := length_filter_le _ _
  obtain ⟨m, hm⟩ := Nat.exists_eq_add_of_le hle
  rw [hm, ← range'_append_1, filterMap_append]
  have hfilled := filterMap_entries (s.pollSet datafd nfd).2.pfd (CabPeer.pollEntry datafd)
    (fun j p hp => (@populatePoll_at datafd p s.list 1 j (cabPollStart nfd) hp).1)
  have hunfilled : (range' (1 + (s.list.filter CabPeer.plug).length) m).filterMap (s.pollSet datafd nfd).2.pfd =
      [] := by
    rw [filterMap_eq_nil_iff]
    intro k hk
    exact pollSet_unfilled datafd nfd (mem_range'_1.mp hk).1
  rw [hfilled, hunfilled, append_nil]

lemma entries_iff : EntriesRight datafd nfd s ↔ ∀ p ∈ s.list, p.plug = true := by
  constructor
  · intro h p hp
    by_contra hplug
    have hlt : (s.list.filter CabPeer.plug).length < s.list.length :=
      length_filter_lt_length_iff_exists.mpr ⟨p, hp, hplug⟩
    obtain ⟨q, -, -, hentry⟩ := h s.list.length (by omega) (Nat.le_refl _)
    rw [pollSet_unfilled datafd nfd (by omega)] at hentry
    cases hentry
  intro hall k hk hle
  have hfilter : s.list.filter CabPeer.plug = s.list := filter_eq_self.mpr hall
  obtain ⟨j, rfl⟩ := Nat.exists_eq_add_of_le hk
  have hj : j < s.list.length := by omega
  have hp : (s.list.filter CabPeer.plug)[j]? = some s.list[j] := by
    rw [hfilter]
    exact getElem?_eq_getElem hj
  obtain ⟨hentry, hcopy⟩ := @populatePoll_at datafd _ s.list 1 j (cabPollStart nfd) hp
  exact ⟨s.list[j], hcopy, hall _ (getElem_mem hj), hentry⟩

lemma opened_length_le (list : List CabPeer) :
    (list.filter CabPeer.plug).length ≤ ((populatePeerlist list).filter CabPeer.plug).length := by
  rw [← countP_eq_length_filter, ← countP_eq_length_filter, populatePeerlist, countP_map]
  apply countP_mono_left
  intro p _ hplug
  rw [comp_apply, if_neg (by rw [hplug]; simp)]
  exact hplug

lemma opened_iff {list : List CabPeer} : (list.filter CabPeer.plug).map (CabPeer.pollEntry datafd) =
    ((populatePeerlist list).filter CabPeer.plug).map (CabPeer.pollEntry datafd) ↔ ∀ p ∈ list, p.state = .auth →
    p.plug = true := by
  constructor
  · intro heq
    have hlen := congrArg length heq
    rw [length_map, length_map] at hlen
    clear heq
    induction list with
    | nil => exact fun p hp => absurd hp not_mem_nil
    | cons q list ih =>
      have hle := opened_length_le list
      rw [populatePeerlist, map_cons, ← populatePeerlist] at hlen
      by_cases hplug : q.plug = true
      · rw [if_neg (by rw [hplug]; simp), filter_cons_of_pos hplug, filter_cons_of_pos hplug,
          length_cons, length_cons] at hlen
        intro p hp hauth
        rcases mem_cons.mp hp with rfl | hp
        · exact hplug
        · exact ih (Nat.succ.inj hlen) p hp hauth
      rw [filter_cons_of_neg hplug] at hlen
      by_cases hauth : q.state = .auth
      · rw [if_pos ⟨Bool.eq_false_iff.mpr hplug, hauth⟩, filter_cons_of_pos rfl, length_cons] at hlen
        omega
      rw [if_neg (fun h => hauth h.2), filter_cons_of_neg hplug] at hlen
      intro p hp hstate
      rcases mem_cons.mp hp with rfl | hp
      · exact absurd hstate hauth
      · exact ih hlen p hp hstate
  intro hall
  have hsame : populatePeerlist list = list.map id := by
    apply map_congr_left
    intro p hp
    by_cases hauth : p.state = .auth
    · rw [if_neg (by rw [hall p hp hauth]; simp), id]
    · rw [if_neg (fun h => hauth h.2), id]
  rw [hsame, map_id]

lemma oneEach_iff : OneEach datafd nfd s ↔ ∀ p ∈ s.list, p.state = .auth → p.plug = true := by
  rw [OneEach, pollSet_filled, CabPoller.pollSet, populatePoll_list]
  exact opened_iff datafd

lemma nextPeer_le {n : Nat} (i : Nat) (hn : n ≠ 0) : nextPeer n i < 1 + n := by
  rw [nextPeer]
  split
  · omega
  · omega

lemma nextIndex_iff : NextIndexRight datafd nfd s ↔ s.list ≠ [] := by
  have hlen : (populatePoll datafd s.list 1 (cabPollStart nfd)).1.length = s.list.length := by
    rw [populatePoll_list, populatePeerlist, length_map]
  constructor
  · rintro h hnil
    -- an error of the socket wakes the server up
    apply h (.ready (fun _ => 0x0008)) ⟨0, 0⟩
    rw [recvPolled]
    dsimp only
    rw [if_neg (by decide), hlen, hnil]
    rfl
  intro hne polled now
  have hn : s.list.length ≠ 0 := fun hzero => hne (length_eq_zero_iff.mp hzero)
  have hinside := nextPeer_le s.i hn
  cases polled with
  | failed interrupted => cases interrupted <;> nofun
  | timeout => nofun
  | ready revents =>
    rw [recvPolled]
    dsimp only
    split
    · nofun
    rw [hlen, if_neg (Nat.not_le.mpr hinside)]
    split
    · nofun
    split
    · split
      · nofun
      · split <;> nofun
    · nofun

end Parts

/-- The poll set is right exactly if there is a peer, and every peer has a connection. -/
theorem poll_set_iff (datafd : CabAddr → Nat) (nfd : Nat) (s : CabPoller) :
    PollSetRight datafd nfd s ↔ s.list ≠ [] ∧ ∀ p ∈ s.list, p.plug = true := by
  constructor
  · rintro ⟨hentries, -, hindex⟩
    exact ⟨(nextIndex_iff datafd nfd).mp hindex, (entries_iff datafd nfd).mp hentries⟩
  rintro ⟨hne, hall⟩
  exact ⟨(entries_iff datafd nfd).mpr hall, (oneEach_iff datafd nfd).mpr (fun p hp _ => hall p hp),
    (nextIndex_iff datafd nfd).mpr hne⟩

def loggingIn : CabPoller := ⟨[cabPeerZero ⟨0x0A000001, 7667⟩ .challenge], 1⟩

/-- Its entry is not filled in. Without any peer the entry looked at is behind the array. -/
theorem poll_set_wrong :
    ((loggingIn.pollSet (fun _ => 4) 3).2.pfd 1 = none ∧ ¬PollSetRight (fun _ => 4) 3 loggingIn) ∧
    (recvPolled (fun _ => 4) 3 (.ready (fun _ => 0x0008)) ⟨0, 0⟩ ⟨[], 1⟩).1 = .outside := by
  refine ⟨⟨rfl, ?_⟩, rfl⟩
  rintro ⟨hentries, -, -⟩
  have hplug := (entries_iff (fun _ => 4) 3).mp hentries _ mem_cons_self
  cases hplug

end Vde
