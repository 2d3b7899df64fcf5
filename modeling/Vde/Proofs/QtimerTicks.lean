import Mathlib.Algebra.Order.Ring.Int
import Mathlib.Data.List.Range
import Vde.Lib.NextChain
import Vde.Qtimer

/-!
# The turns of a tick

A timer that has not been deleted has run as often as the ticks so far allow. In a tick the records in
front of the one whose turn it is have been brought up to date and those behind it are as the tick before
has left them.
-/

namespace Vde

open List Function

def runsOf (t : TimerLog) (c : Nat) : List (Int × Nat × Nat) :=
  (range c).map (fun i : Nat => (t.start + ((i : Int) + 1) * t.period, t.call, t.arg))

def due (t : TimerLog) (now : Int) : Nat := min t.limit ((now - t.start) / t.period).toNat

/-- A timer has run once for each time that was due, up to now or to its deletion, and not since then.
If it was deleted by a function called in a tick, its own turn in that tick may have been still to come. -/
structure TimerRight (now : Int) (t : TimerLog) : Prop where
  live : t.gone = none → t.ran = runsOf t (due t now)
  gone : ∀ d, t.gone = some d → t.ran = runsOf t d.count ∧
    (d.count = due t d.time ∨ d.inTick = true ∧ d.count = due t (d.time - 1))

/-- A timer that has been deleted or has run as often as it should. -/
def TimerOver (t : TimerLog) : Prop := t.gone ≠ none ∨ t.ran.length = t.limit

/-! ## Times that are due -/

section

variable {t : TimerLog} {now : Int}

lemma runsOf_length (t : TimerLog) (c : Nat) : (runsOf t c).length = c := by
  rw [runsOf, length_map, length_range]

lemma runsOf_succ (t : TimerLog) (c : Nat) :
    runsOf t (c + 1) = runsOf t c ++ [(t.start + ((c : Int) + 1) * t.period, t.call, t.arg)] := by
  rw [runsOf, range_succ, map_append]
  rfl

lemma due_le (t : TimerLog) (now : Int) : due t now ≤ t.limit := Nat.min_le_left _ _

section

variable (hp : 0 < t.period)

include hp

lemma lt_next (hlt : due t now < t.limit) : now < t.start + ((due t now : Int) + 1) * t.period := by
  have hq : (now - t.start) / t.period < (due t now : Int) + 1 := by
    rw [due] at hlt ⊢
    omega
  have hlt := (Int.ediv_lt_iff_lt_mul hp).mp hq
  omega

lemma due_mul_le (hs : t.start ≤ now) : t.start + (due t now : Int) * t.period ≤ now := by
  have h0 : 0 ≤ (now - t.start) / t.period := Int.ediv_nonneg (by omega) (by omega)
  have hq : (due t now : Int) ≤ (now - t.start) / t.period := by
    rw [due]
    omega
  have hle := (Int.le_ediv_iff_mul_le hp).mp hq
  omega

lemma due_eq {c : Nat} (hc : c ≤ t.limit) (hle : t.start + (c : Int) * t.period ≤ now)
    (hlt : c < t.limit → now < t.start + ((c : Int) + 1) * t.period) : due t now = c := by
  have h0 : (c : Int) ≤ (now - t.start) / t.period := (Int.le_ediv_iff_mul_le hp).mpr (by omega)
  have h1 : c < t.limit → (now - t.start) / t.period < (c : Int) + 1 := by
    intro h
    exact (Int.ediv_lt_iff_lt_mul hp).mpr (by have := hlt h; omega)
  rw [due]
  omega

lemma due_over {now' : Int} (hs : t.start ≤ now) (hle : now ≤ now')
    (hall : due t now = t.limit) : due t now' = t.limit := by
  have hdone := due_mul_le hp hs
  rw [hall] at hdone
  apply due_eq hp le_rfl
  · omega
  intro h
  omega

lemma due_idle (hs : t.start ≤ now) (hlt : due t now < t.limit)
    (hnext : now + 1 < t.start + ((due t now : Int) + 1) * t.period) : due t (now + 1) = due t now := by
  have hdone := due_mul_le hp hs
  apply due_eq hp (Nat.le_of_lt hlt)
  · omega
  intro _
  exact hnext

lemma due_next (hlt : due t now < t.limit) (hnext : t.start + ((due t now : Int) + 1) * t.period ≤ now + 1) :
    due t (now + 1) = due t now + 1 ∧ t.start + ((due t now : Int) + 1) * t.period = now + 1 := by
  have hlater := lt_next hp hlt
  have heq : t.start + ((due t now : Int) + 1) * t.period = now + 1 := by omega
  refine ⟨?_, heq⟩
  apply due_eq hp hlt
  · rw [Nat.cast_succ]
    omega
  intro _
  rw [Nat.cast_succ, Int.add_mul _ 1, Int.one_mul]
  omega

end

end

/-! ## Records that carry timers -/

/-- The record of a timer says when it runs next and how often it still has to. -/
structure CarriesTimer (now : Int) (r : QtTimer) (t : TimerLog) : Prop where
  number : r.n = t.number
  period : r.period = t.period
  call : r.call = t.call
  arg : r.arg = t.arg
  live : t.gone = none → r.times = t.limit - due t now ∧
    (due t now < t.limit → r.nextcall = t.start + ((due t now : Int) + 1) * t.period)
  gone : t.gone ≠ none → r.times = 0

structure TimerSound (now : Int) (t : TimerLog) : Prop where
  period : 0 < t.period
  limit : 0 < t.limit
  start : t.start ≤ now

variable {n id : Nat} {time : Int} {inTick : Bool} {timers : Nat → TimerLog}

section

variable {t : TimerLog} {now : Int} {r : QtTimer}

lemma CarriesTimer.over (h : CarriesTimer now r t) (hright : TimerRight now t) (hzero : r.times = 0) : TimerOver t := by
  by_cases hgone : t.gone = none
  · right
    have hle := due_le t now
    have hleft := (h.live hgone).1
    rw [hright.live hgone, runsOf_length]
    omega
  · exact Or.inl hgone

lemma TimerRight.over {now' : Int} (h : TimerRight now t) (hsound : TimerSound now t) (hover : TimerOver t)
    (hle : now ≤ now') : TimerRight now' t := by
  refine ⟨?_, h.gone⟩
  intro hlive
  have hran := h.live hlive
  have hall : due t now = t.limit := by
    have hlen := hover.resolve_left (not_not.mpr hlive)
    rwa [hran, runsOf_length] at hlen
  rw [due_over hsound.period hsound.start hle hall, hran, hall]

lemma markDeleted_other (h : (timers id).number ≠ n) : markDeleted n time inTick timers id = timers id :=
  if_neg (fun hboth => h hboth.1)

lemma markDeleted_fields (n : Nat) (time : Int) (inTick : Bool) (timers : Nat → TimerLog) (id : Nat) :
    ∃ g, markDeleted n time inTick timers id = { timers id with gone := g } := by
  rw [markDeleted]
  split
  · exact ⟨_, rfl⟩
  · exact ⟨(timers id).gone, rfl⟩

lemma markDeleted_gone
    (h : (timers id).number = n ∨ (timers id).gone ≠ none) : (markDeleted n time inTick timers id).gone ≠ none := by
  rw [markDeleted]
  by_cases hboth : (timers id).number = n ∧ (timers id).gone = none
  · rw [if_pos hboth]
    exact Option.some_ne_none _
  rw [if_neg hboth]
  intro hnone
  exact h.elim (fun hn => hboth ⟨hn, hnone⟩) (fun hgone => hgone hnone)

lemma TimerRight.marked (h : TimerRight now (timers id)) (htime : now = time ∨ inTick = true ∧ now = time - 1) :
    TimerRight now (markDeleted n time inTick timers id) := by
  rw [markDeleted]
  by_cases hboth : (timers id).number = n ∧ (timers id).gone = none
  · rw [if_pos hboth]
    have hran := h.live hboth.2
    refine ⟨fun hnone => absurd hnone (Option.some_ne_none _), ?_⟩
    intro d hd
    rw [← Option.some.inj hd]
    dsimp only
    have hlen : (timers id).ran.length = due (timers id) now := by rw [hran, runsOf_length]
    rw [hlen]
    refine ⟨hran, ?_⟩
    rcases htime with rfl | ⟨htick, rfl⟩
    · exact Or.inl rfl
    · exact Or.inr ⟨htick, rfl⟩
  rw [if_neg hboth]
  exact h

end

/-! ## The arrays in a tick -/

/-- In turn `i` of a tick that began with the records `orig`, those in `A` have been kept and those in `F`
are free. Between ticks all active records have been kept. -/
structure TickMemory (orig : List Nat) (i : Nat) (A F : List Nat) (s : QtState) : Prop where
  top : s.top ≠ 0
  len : s.activeqt = orig.length
  turn : i ≤ orig.length
  front : A.length ≤ i
  done : ∀ k, (h : k < A.length) → s.qth k = A[k]
  ahead : ∀ k, i ≤ k → (h : k < orig.length) → s.qth k = orig[k]
  old : ∀ k < orig.length, s.qth k ∈ orig
  sub : A ⊆ orig
  nodup : (A ++ orig.drop i ++ F).Nodup
  free : NextChain (fun r => (s.recs r).arg) s.qtf F
  known : ∀ r ∈ A ++ orig.drop i ++ F, r ≠ 0 ∧ r < s.top
  numbers : ∀ r ∈ orig, ∀ r' ∈ orig, (s.recs r).n = (s.recs r').n → r = r'

section

variable {orig A F : List Nat} {i : Nat} {s : QtState}

section

variable (h : TickMemory orig i A F s)

include h

lemma TickMemory.congr {recs : Nat → QtTimer}
    (hrecs : ∀ r, (recs r).n = (s.recs r).n ∧ (recs r).arg = (s.recs r).arg) :
    TickMemory orig i A F { s with recs := recs } := by
  refine ⟨h.top, h.len, h.turn, h.front, h.done, h.ahead, h.old, h.sub, h.nodup, ?_, h.known, ?_⟩
  · exact h.free.congr (fun r _ => (hrecs r).2)
  intro r hr r' hr' he
  replace he : (recs r).n = (recs r').n := he
  rw [(hrecs r).1, (hrecs r').1] at he
  exact h.numbers r hr r' hr' he

lemma TickMemory.index {r : Nat} (hr : r ∈ A ++ orig.drop i) : r ∈ orig ∧ ∃ k < s.activeqt, s.qth k = r := by
  rw [h.len]
  have hturn := h.turn
  have hfront := h.front
  rcases mem_append.mp hr with hr | hr
  · obtain ⟨k, hk, rfl⟩ := getElem_of_mem hr
    exact ⟨h.sub (getElem_mem hk), k, by omega, h.done k hk⟩
  obtain ⟨k, hk, rfl⟩ := getElem_of_mem hr
  have hlt : i + k < orig.length := by
    rw [length_drop] at hk
    omega
  rw [getElem_drop]
  exact ⟨getElem_mem hlt, i + k, hlt, h.ahead (i + k) (by omega) hlt⟩

lemma TickMemory.release (hi : i < orig.length) :
    TickMemory orig (i + 1) A (orig[i] :: F) { s with
      recs := update s.recs orig[i] { s.recs orig[i] with arg := s.qtf }, qtf := orig[i] } := by
  have hdrop : orig.drop i = orig[i] :: orig.drop (i + 1) := drop_eq_getElem_cons hi
  have hperm : (A ++ orig.drop i ++ F).Perm (A ++ orig.drop (i + 1) ++ orig[i] :: F) := by
    rw [hdrop, append_assoc, append_assoc]
    exact Perm.append_left A perm_middle.symm
  have hnodup := hperm.nodup_iff.mp h.nodup
  have hnew : orig[i] ∉ F := by
    have hright := (nodup_append'.mp hnodup).2.1
    exact (nodup_cons.mp hright).1
  have hnull : orig[i] ≠ 0 := by
    exact (h.known _ (hperm.mem_iff.mpr (mem_append_right _ mem_cons_self))).1
  refine ⟨h.top, h.len, hi, Nat.le_succ_of_le h.front, h.done, ?_, h.old, h.sub, hnodup, ?_, ?_, ?_⟩
  · intro k hk hk'
    exact h.ahead k (by omega) hk'
  · apply h.free.push hnull hnew
    · dsimp only
      rw [update_self]
    intro c hc
    dsimp only
    rw [update_of_ne hc]
  · intro r hr
    exact h.known r (hperm.mem_iff.mpr hr)
  · have hn : ∀ r, (update s.recs orig[i] { s.recs orig[i] with arg := s.qtf } r).n = (s.recs r).n := by
      intro r
      by_cases he : r = orig[i]
      · rw [he, update_self]
      · rw [update_of_ne he]
    intro r hr r' hr' he
    dsimp only at he
    rw [hn, hn] at he
    exact h.numbers r hr r' hr' he

lemma TickMemory.keep (hi : i < orig.length) :
    TickMemory orig (i + 1) (A ++ [orig[i]]) F
      { s with qth := update s.qth A.length orig[i] } := by
  have hdrop : orig.drop i = orig[i] :: orig.drop (i + 1) := drop_eq_getElem_cons hi
  have hsame : A ++ [orig[i]] ++ orig.drop (i + 1) ++ F = A ++ orig.drop i ++ F := by
    rw [hdrop, append_assoc A, singleton_append]
  have hfront := h.front
  refine ⟨h.top, h.len, hi, ?_, ?_, ?_, ?_, ?_, ?_, h.free, ?_, h.numbers⟩
  · rw [length_append, length_singleton]
    omega
  · intro k hk
    rw [length_append, length_singleton] at hk
    by_cases hka : k = A.length
    · subst hka
      dsimp only
      rw [update_self, getElem_append_right le_rfl]
      simp
    dsimp only
    rw [update_of_ne hka, getElem_append_left (by omega)]
    exact h.done k (by omega)
  · intro k hk hk'
    dsimp only
    rw [update_of_ne (by omega)]
    exact h.ahead k (by omega) hk'
  · intro k hk
    dsimp only
    by_cases hka : k = A.length
    · rw [hka, update_self]
      exact getElem_mem hi
    rw [update_of_ne hka]
    exact h.old k hk
  · intro r hr
    rcases mem_append.mp hr with hr | hr
    · exact h.sub hr
    rw [mem_singleton.mp hr]
    exact getElem_mem hi
  · rw [hsame]
    exact h.nodup
  · rw [hsame]
    exact h.known

lemma TickMemory.qtimerDel (n : Nat) :
    ∃ recs, qtimerDel n s = { s with recs := recs } ∧
      (∀ r ∈ A ++ orig.drop i, recs r =
        if (s.recs r).n = n then { s.recs r with times := 0 } else s.recs r) ∧
      ∀ r, recs r = { s.recs r with times := (recs r).times } := by
  rw [Vde.qtimerDel]
  cases hfind : (range s.activeqt).find? (fun i => (s.recs (s.qth i)).n == n) with
  | none =>
    refine ⟨s.recs, rfl, ?_, fun r => rfl⟩
    intro r hr
    obtain ⟨-, k, hk, rfl⟩ := h.index hr
    have hno := find?_eq_none.mp hfind k (mem_range.mpr hk)
    rw [if_neg (fun he => hno (beq_iff_eq.mpr he))]
  | some k =>
    have hk : k < s.activeqt := mem_range.mp (mem_of_find?_eq_some hfind)
    have hn : (s.recs (s.qth k)).n = n := by
      have hfound := find?_some hfind
      exact beq_iff_eq.mp hfound
    refine ⟨_, rfl, ?_, ?_⟩
    · intro r hr
      by_cases he : r = s.qth k
      · rw [he, update_self, if_pos hn]
      have hne : (s.recs r).n ≠ n := by
        intro hrn
        rw [h.len] at hk
        exact he (h.numbers r (h.index hr).1 _ (h.old k hk) (hrn.trans hn.symm))
      rw [update_of_ne he, if_neg hne]
    intro r
    by_cases he : r = s.qth k
    · rw [he, update_self]
    · rw [update_of_ne he]

lemma TickMemory.del (n : Nat) : TickMemory orig i A F (Vde.qtimerDel n s) := by
  obtain ⟨recs, hrecs, -, hframe⟩ := h.qtimerDel n
  rw [hrecs]
  apply h.congr
  intro r
  rw [hframe r]
  exact ⟨rfl, rfl⟩

end

end

/-! ## The timers in a tick -/

/-- In a tick after the time `prev` the timers of the records `A` have had their turn at the time `now` and
those of the records `B` have not. -/
structure TickTimers (prev now : Int) (A B : List Nat) (w : QtRun) : Prop where
  owned : ∀ r ∈ A ++ B, w.owner r < w.added
  apart : ∀ r ∈ A ++ B, ∀ r' ∈ A ++ B, w.owner r = w.owner r' → r = r'
  front : ∀ r ∈ A, CarriesTimer now (w.s.recs r) (w.timers (w.owner r))
  ahead : ∀ r ∈ B, CarriesTimer prev (w.s.recs r) (w.timers (w.owner r))
  sound : ∀ id < w.added, TimerSound prev (w.timers id)
  rightAhead : ∀ r ∈ B, TimerRight prev (w.timers (w.owner r))
  rightElse : ∀ id < w.added, (∀ r ∈ B, w.owner r ≠ id) → TimerRight now (w.timers id)
  kept : ∀ id < w.added, ¬TimerOver (w.timers id) → ∃ r ∈ A ++ B, w.owner r = id

lemma CarriesTimer.marked {now : Int} {r : QtTimer}
    (h : CarriesTimer now r (timers id)) :
    CarriesTimer now (if r.n = n then { r with times := 0 } else r) (markDeleted n time inTick timers id) := by
  by_cases hn : r.n = n
  · have hgone : (markDeleted n time inTick timers id).gone ≠ none :=
      markDeleted_gone (Or.inl (h.number.symm.trans hn))
    obtain ⟨g, hg⟩ := markDeleted_fields n time inTick timers id
    rw [hg] at hgone ⊢
    rw [if_pos hn]
    exact ⟨h.number, h.period, h.call, h.arg, fun hnone => absurd hnone hgone, fun _ => rfl⟩
  rw [if_neg hn, markDeleted_other (fun he => hn (h.number.trans he))]
  exact h

lemma TimerOver.marked (h : TimerOver (timers id)) : TimerOver (markDeleted n time inTick timers id) := by
  rw [markDeleted]
  split
  · exact Or.inl (Option.some_ne_none _)
  · exact h

section

variable {prev now : Int} {orig A B F : List Nat} {i : Nat} {w : QtRun}

lemma TickTimers.del {A' : List Nat} (h : TickTimers prev now A B w) (hmem : TickMemory orig i A' F w.s)
    (hlive : ∀ r ∈ A ++ B, r ∈ A' ++ orig.drop i) (n : Nat)
    (htime : prev = now ∨ inTick = true ∧ prev = now - 1) :
    TickTimers prev now A B
      { w with s := qtimerDel n w.s, timers := markDeleted n now inTick w.timers } := by
  obtain ⟨recs, hrecs, hact, -⟩ := hmem.qtimerDel n
  rw [hrecs]
  refine ⟨h.owned, h.apart, ?_, ?_, ?_, ?_, ?_, ?_⟩
  · intro r hr
    dsimp only
    rw [hact r (hlive r (mem_append_left _ hr))]
    exact (h.front r hr).marked
  · intro r hr
    dsimp only
    rw [hact r (hlive r (mem_append_right _ hr))]
    exact (h.ahead r hr).marked
  · intro id hid
    obtain ⟨g, hg⟩ := markDeleted_fields n now inTick w.timers id
    have hsound := h.sound id hid
    dsimp only
    rw [hg]
    exact ⟨hsound.period, hsound.limit, hsound.start⟩
  · intro r hr
    exact (h.rightAhead r hr).marked htime
  · intro id hid hne
    exact (h.rightElse id hid hne).marked (Or.inl rfl)
  · intro id hid hover
    exact h.kept id hid (fun hdone => hover hdone.marked)

lemma TickTimers.release {r : Nat} (h : TickTimers prev now A (r :: B) w) (hr : r ∉ A ++ B)
    (hle : prev ≤ now) (hzero : (w.s.recs r).times = 0) {s : QtState}
    (hrecs : ∀ x, x ≠ r → s.recs x = w.s.recs x) : TickTimers prev now A B { w with s := s } := by
  have hrmem : r ∈ r :: B := mem_cons_self
  have hin : ∀ x ∈ A ++ B, x ∈ A ++ r :: B := by
    intro x hx
    rcases mem_append.mp hx with hx | hx
    · exact mem_append_left _ hx
    · exact mem_append_right _ (mem_cons_of_mem _ hx)
  have hover := (h.ahead r hrmem).over (h.rightAhead r hrmem) hzero
  refine ⟨fun x hx => h.owned x (hin x hx), fun x hx y hy => h.apart x (hin x hx) y (hin y hy), ?_, ?_,
    h.sound, fun x hx => h.rightAhead x (mem_cons_of_mem _ hx), ?_, ?_⟩
  · intro x hx
    have hne : x ≠ r := fun he => hr (mem_append_left _ (he ▸ hx))
    dsimp only
    rw [hrecs x hne]
    exact h.front x hx
  · intro x hx
    have hne : x ≠ r := fun he => hr (mem_append_right _ (he ▸ hx))
    dsimp only
    rw [hrecs x hne]
    exact h.ahead x (mem_cons_of_mem _ hx)
  · intro id hid hne
    by_cases he : w.owner r = id
    · rw [← he]
      have hown := h.owned r (mem_append_right _ hrmem)
      exact (h.rightAhead r hrmem).over (h.sound _ hown) hover hle
    apply h.rightElse id hid
    intro x hx
    rcases mem_cons.mp hx with rfl | hx
    · exact he
    · exact hne x hx
  · intro id hid hnot
    obtain ⟨x, hx, hid'⟩ := h.kept id hid hnot
    have hxr : x ≠ r := by
      intro he
      rw [he] at hid'
      rw [← hid'] at hnot
      exact hnot hover
    refine ⟨x, ?_, hid'⟩
    rcases mem_append.mp hx with hx | hx
    · exact mem_append_left _ hx
    · exact mem_append_right _ ((mem_cons.mp hx).resolve_left hxr)

lemma TickTimers.keep {r : Nat} (h : TickTimers prev now A (r :: B) w) (hr : r ∉ A ++ B) {s : QtState}
    {t : TimerLog} (hrecs : ∀ x, x ≠ r → s.recs x = w.s.recs x) (hcarries : CarriesTimer now (s.recs r) t)
    (hright : TimerRight now t) (hsound : TimerSound prev t) :
    TickTimers prev now (A ++ [r]) B
      { w with s := s, timers := update w.timers (w.owner r) t } := by
  have hsame : A ++ [r] ++ B = A ++ r :: B := by rw [append_assoc, singleton_append]
  have hrmem : r ∈ A ++ r :: B := mem_append_right _ mem_cons_self
  have hother : ∀ x ∈ A ++ B, x ∈ A ++ r :: B ∧ x ≠ r ∧ w.owner x ≠ w.owner r := by
    intro x hx
    have hne : x ≠ r := fun he => hr (he ▸ hx)
    have hin : x ∈ A ++ r :: B := by
      rcases mem_append.mp hx with hx | hx
      · exact mem_append_left _ hx
      · exact mem_append_right _ (mem_cons_of_mem _ hx)
    exact ⟨hin, hne, fun he => hne (h.apart x hin r hrmem he)⟩
  refine ⟨?_, ?_, ?_, ?_, ?_, ?_, ?_, ?_⟩
  · rw [hsame]
    exact h.owned
  · rw [hsame]
    exact h.apart
  · intro x hx
    dsimp only
    rcases mem_append.mp hx with hx | hx
    · obtain ⟨-, hne, hown⟩ := hother x (mem_append_left _ hx)
      rw [hrecs x hne, update_of_ne hown]
      exact h.front x hx
    rw [mem_singleton.mp hx, update_self]
    exact hcarries
  · intro x hx
    obtain ⟨-, hne, hown⟩ := hother x (mem_append_right _ hx)
    dsimp only
    rw [hrecs x hne, update_of_ne hown]
    exact h.ahead x (mem_cons_of_mem _ hx)
  · intro id hid
    dsimp only
    by_cases he : id = w.owner r
    · rw [he, update_self]
      exact hsound
    rw [update_of_ne he]
    exact h.sound id hid
  · intro x hx
    obtain ⟨-, -, hown⟩ := hother x (mem_append_right _ hx)
    dsimp only
    rw [update_of_ne hown]
    exact h.rightAhead x (mem_cons_of_mem _ hx)
  · intro id hid hne
    dsimp only
    by_cases he : id = w.owner r
    · rw [he, update_self]
      exact hright
    rw [update_of_ne he]
    apply h.rightElse id hid
    intro x hx
    rcases mem_cons.mp hx with rfl | hx
    · exact fun hx => he hx.symm
    · exact hne x hx
  · intro id hid hnot
    rw [hsame]
    by_cases he : id = w.owner r
    · exact ⟨r, hrmem, he.symm⟩
    dsimp only at hnot
    rw [update_of_ne he] at hnot
    exact h.kept id hid hnot

end

/-! ## A tick -/

lemma advance_recs {r : Nat} {s : QtState} (x : Nat) :
    ((advanceTimer r s).recs x).n = (s.recs x).n ∧ ((advanceTimer r s).recs x).arg = (s.recs x).arg := by
  rw [advanceTimer]
  dsimp only
  by_cases hx : x = r
  · rw [hx, update_self]
    exact ⟨rfl, rfl⟩
  rw [update_of_ne hx]
  exact ⟨rfl, rfl⟩

lemma qtimerDel_advance (n r : Nat) (s : QtState) :
    qtimerDel n (advanceTimer r s) = advanceTimer r (qtimerDel n s) := by
  have hfind : (range (advanceTimer r s).activeqt).find?
      (fun i => ((advanceTimer r s).recs ((advanceTimer r s).qth i)).n == n) =
      (range s.activeqt).find? (fun i => (s.recs (s.qth i)).n == n) := by
    have htest : (fun i => ((advanceTimer r s).recs ((advanceTimer r s).qth i)).n == n) =
        fun i => (s.recs (s.qth i)).n == n := by
      funext i
      rw [(advance_recs _).1]
      rfl
    rw [htest]
    rfl
  rw [qtimerDel, hfind, qtimerDel]
  cases (range s.activeqt).find? (fun i => (s.recs (s.qth i)).n == n) with
  | none => rfl
  | some i =>
    dsimp only [advanceTimer]
    by_cases hr : s.qth i = r
    · rw [hr, update_self, update_self, update_idem, update_idem]
      rfl
    · rw [update_of_ne hr, update_of_ne (Ne.symm hr), update_comm hr]

lemma fire_fst (dels : List Nat) (r : Nat) (s : QtState) :
    (fire dels r s).1 = dels.foldl (fun s n => qtimerDel n s) (advanceTimer r s) := by
  rw [fire]
  dsimp only
  induction dels generalizing s with
  | nil => rfl
  | cons n dels ih => rw [foldl_cons, foldl_cons, ih, qtimerDel_advance]

def runOnce (now : Int) (t : TimerLog) : TimerLog := { t with ran := t.ran ++ [(now, t.call, t.arg)] }

section

variable {prev now : Int} {orig A B F : List Nat} {i : Nat} {w : QtRun}

lemma TickTimers.dels {A' : List Nat} (h : TickTimers prev now A B w) (hmem : TickMemory orig i A' F w.s)
    (hlive : ∀ r ∈ A ++ B, r ∈ A' ++ orig.drop i) (dels : List Nat) (htime : prev = now - 1) :
    TickMemory orig i A' F (dels.foldl (fun s n => qtimerDel n s) w.s) ∧
      TickTimers prev now A B
        { w with
          s := dels.foldl (fun s n => qtimerDel n s) w.s
          timers := dels.foldl (fun timers n => markDeleted n now true timers) w.timers } := by
  induction dels generalizing w with
  | nil => exact ⟨hmem, h⟩
  | cons n dels ih => exact ih (h.del hmem hlive n (Or.inr ⟨rfl, htime⟩)) (hmem.del n)

lemma qtimerDel_fields (n : Nat) (s : QtState) : (qtimerDel n s).qth = s.qth ∧ (qtimerDel n s).gqtime = s.gqtime ∧
    ∀ x, ((qtimerDel n s).recs x).nextcall = (s.recs x).nextcall ∧ ((qtimerDel n s).recs x).period =
    (s.recs x).period := by
  rw [qtimerDel]
  cases (range s.activeqt).find? (fun i => (s.recs (s.qth i)).n == n) with
  | none => exact ⟨rfl, rfl, fun x => ⟨rfl, rfl⟩⟩
  | some i =>
    refine ⟨rfl, rfl, fun x => ?_⟩
    dsimp only
    by_cases hx : x = s.qth i
    · rw [hx, update_self]
      exact ⟨rfl, rfl⟩
    rw [update_of_ne hx]
    exact ⟨rfl, rfl⟩

lemma dels_fields (dels : List Nat) (s : QtState) : (dels.foldl (fun s n => qtimerDel n s) s).qth = s.qth ∧
    (dels.foldl (fun s n => qtimerDel n s) s).gqtime = s.gqtime ∧ ∀ x,
    ((dels.foldl (fun s n => qtimerDel n s) s).recs x).nextcall = (s.recs x).nextcall ∧
    ((dels.foldl (fun s n => qtimerDel n s) s).recs x).period = (s.recs x).period := by
  induction dels generalizing s with
  | nil => exact ⟨rfl, rfl, fun x => ⟨rfl, rfl⟩⟩
  | cons n dels ih =>
    obtain ⟨hqth, hgqtime, hrecs⟩ := qtimerDel_fields n s
    obtain ⟨hqth', hgqtime', hrecs'⟩ := ih (qtimerDel n s)
    rw [foldl_cons]
    refine ⟨hqth'.trans hqth, hgqtime'.trans hgqtime, fun x => ?_⟩
    exact ⟨(hrecs' x).1.trans (hrecs x).1, (hrecs' x).2.trans (hrecs x).2⟩

section

variable {r : QtTimer} {t : TimerLog} (h : CarriesTimer prev r t)

include h

lemma CarriesTimer.called (hcalled : r.times ≠ 0) : t.gone = none ∧ due t prev < t.limit ∧ r.times =
    t.limit - due t prev ∧ r.nextcall = t.start + ((due t prev : Int) + 1) * t.period := by
  have hgone : t.gone = none := by
    by_contra hgone
    exact hcalled (h.gone hgone)
  obtain ⟨htimes, hnext⟩ := h.live hgone
  have hlt : due t prev < t.limit := by omega
  exact ⟨hgone, hlt, htimes, hnext hlt⟩

lemma CarriesTimer.idle (hright : TimerRight prev t) (hsound : TimerSound prev t) (hcalled : r.times ≠ 0)
    (hlater : ¬r.nextcall ≤ prev + 1) : CarriesTimer (prev + 1) r t ∧ TimerRight (prev + 1) t := by
  obtain ⟨hgone, hlt, htimes, hnext⟩ := h.called hcalled
  have hsame := due_idle hsound.period hsound.start hlt (by omega)
  constructor
  · refine ⟨h.number, h.period, h.call, h.arg, fun _ => ?_, h.gone⟩
    rw [hsame]
    exact ⟨htimes, fun _ => hnext⟩
  refine ⟨fun _ => ?_, hright.gone⟩
  rw [hsame]
  exact hright.live hgone

lemma CarriesTimer.run (hright : TimerRight prev t) (hsound : TimerSound prev t) (hcalled : r.times ≠ 0)
    (hnow : r.nextcall ≤ prev + 1) (hfit : r.nextcall + r.period < 9223372036854775808) (hprev : 0 ≤ prev) :
    CarriesTimer (prev + 1) (timerAfterCall r) (runOnce (prev + 1) t) ∧
    TimerRight (prev + 1) (runOnce (prev + 1) t) := by
  obtain ⟨hgone, hlt, htimes, hnext⟩ := h.called hcalled
  obtain ⟨hmore, htime⟩ := due_next hsound.period hlt (by omega)
  have hperiod := hsound.period
  have hduesame : due (runOnce (prev + 1) t) (prev + 1) = due t (prev + 1) := rfl
  constructor
  · refine ⟨h.number, h.period, h.call, h.arg, fun _ => ?_, fun hne => absurd hgone hne⟩
    rw [hduesame, hmore]
    constructor
    · rw [timerAfterCall]
      dsimp only
      rw [if_pos (by omega), htimes]
      exact Nat.sub_sub _ _ 1
    intro _
    have hsum : toInt64 (r.nextcall + r.period) =
        t.start + (((due t prev + 1 : Nat) : Int) + 1) * t.period := by
      have hmul := Int.add_mul ((due t prev : Int) + 1) 1 t.period
      rw [Int.one_mul] at hmul
      rw [toInt64_eq (by rw [h.period]; omega) hfit, hnext, h.period, Nat.cast_succ, hmul, Int.add_assoc]
    exact hsum
  refine ⟨fun _ => ?_, fun d hd => ?_⟩
  · rw [hduesame, hmore, runOnce]
    dsimp only
    rw [hright.live hgone]
    change _ = runsOf t (due t prev + 1)
    rw [runsOf_succ, htime]
  have hnone : t.gone = some d := hd
  rw [hgone] at hnone
  exact absurd hnone (by simp)

end

lemma TickTimers.of_recs (h : TickTimers prev now A B w) {s : QtState} (hrecs : s.recs = w.s.recs) :
    TickTimers prev now A B { w with s := s } := by
  refine ⟨h.owned, h.apart, ?_, ?_, h.sound, h.rightAhead, h.rightElse, h.kept⟩
  · intro r hr
    dsimp only
    rw [hrecs]
    exact h.front r hr
  intro r hr
  dsimp only
  rw [hrecs]
  exact h.ahead r hr

lemma TickMemory.turn_notMem {s : QtState} (h : TickMemory orig i A F s) (hi : i < orig.length) :
    orig[i] ∉ A ++ orig.drop (i + 1) := by
  have hnodup := h.nodup
  rw [drop_eq_getElem_cons hi] at hnodup
  have hleft := (nodup_append'.mp hnodup).1
  exact (nodup_cons.mp (perm_middle.nodup_iff.mp hleft)).1

lemma turn_idle (hmem : TickMemory orig i A F w.s) (hi : i < orig.length)
    (h : TickTimers prev (prev + 1) A (orig.drop i) w) (hcalled : (w.s.recs orig[i]).times ≠ 0)
    (hlater : ¬(w.s.recs orig[i]).nextcall ≤ prev + 1) :
    TickTimers prev (prev + 1) (A ++ [orig[i]]) (orig.drop (i + 1))
      { w with s := { w.s with qth := update w.s.qth A.length orig[i] } } := by
  rw [drop_eq_getElem_cons hi] at h
  have hr : orig[i] ∈ orig[i] :: orig.drop (i + 1) := mem_cons_self
  have hsound := h.sound _ (h.owned _ (mem_append_right _ hr))
  obtain ⟨hcarries, hright⟩ := (h.ahead _ hr).idle (h.rightAhead _ hr) hsound hcalled hlater
  have hkeep := h.keep (hmem.turn_notMem hi)
    (s := { w.s with qth := update w.s.qth A.length orig[i] }) (fun x _ => rfl) hcarries hright hsound
  rw [update_eq_self] at hkeep
  exact hkeep

lemma fire_effects (owner : Nat → Nat) (timers : Nat → TimerLog) (dels : List Nat) (r : Nat) (s : QtState)
    (hcall : (s.recs r).call = (timers (owner r)).call) (harg : (s.recs r).arg = (timers (owner r)).arg) :
    (fire dels r s).2.foldl (logEffect owner) timers =
      dels.foldl (fun timers n => markDeleted n s.gqtime true timers)
        (update timers (owner r) (runOnce s.gqtime (timers (owner r)))) := by
  rw [fire]
  dsimp only
  rw [foldl_cons, foldl_map, logEffect, runOnce, hcall, harg]
  rfl

lemma turn_run (hmem : TickMemory orig i A F w.s) (hi : i < orig.length)
    (h : TickTimers prev (prev + 1) A (orig.drop i) w) (hgqtime : w.s.gqtime = prev + 1) (hprev : 0 ≤ prev)
    (hcalled : (w.s.recs orig[i]).times ≠ 0) (hnow : (w.s.recs orig[i]).nextcall ≤ prev + 1)
    (hfit : (w.s.recs orig[i]).nextcall + (w.s.recs orig[i]).period < 9223372036854775808) (dels : List Nat) :
    TickMemory orig i A F (fire dels orig[i] w.s).1 ∧
      TickTimers prev (prev + 1) (A ++ [orig[i]]) (orig.drop (i + 1))
        { w with
          s := (fire dels orig[i] w.s).1
          timers := (fire dels orig[i] w.s).2.foldl (logEffect w.owner) w.timers } := by
  have hdrop := drop_eq_getElem_cons hi
  have hlive : ∀ r ∈ A ++ [orig[i]] ++ orig.drop (i + 1), r ∈ A ++ orig.drop i := by
    intro r hr
    rwa [hdrop, ← singleton_append, ← append_assoc]
  rw [hdrop] at h
  have hr : orig[i] ∈ orig[i] :: orig.drop (i + 1) := mem_cons_self
  have hsound := h.sound _ (h.owned _ (mem_append_right _ hr))
  have hahead := h.ahead _ hr
  obtain ⟨hcarries, hright⟩ := hahead.run (h.rightAhead _ hr) hsound hcalled hnow hfit hprev
  have hself : (advanceTimer orig[i] w.s).recs orig[i] = timerAfterCall (w.s.recs orig[i]) := update_self _ _ _
  have hkeep := h.keep (hmem.turn_notMem hi) (s := advanceTimer orig[i] w.s)
    (fun x hx => update_of_ne hx _ _) (hself ▸ hcarries) hright
    ⟨hsound.period, hsound.limit, hsound.start⟩
  have hmem' : TickMemory orig i A F (advanceTimer orig[i] w.s) := hmem.congr (fun x => advance_recs x)
  have hdels := hkeep.dels hmem' hlive dels (by omega)
  rw [fire_fst, fire_effects w.owner w.timers dels orig[i] w.s hahead.call hahead.arg, hgqtime]
  exact hdels

lemma moveFront (s : QtState) (i j : Nat) :
    (if i ≠ j then { s with qth := update s.qth j (s.qth i) } else s) =
      { s with qth := update s.qth j (s.qth i) } := by
  by_cases hij : i = j
  · rw [if_neg (not_not.mpr hij), hij, update_eq_self]
  · rw [if_pos hij]

lemma alarmLoop_right (dels : Nat → List Nat) {left : Nat} (hprev : 0 ≤ prev) (hleft : i + left = orig.length)
    (hmem : TickMemory orig i A F w.s) (h : TickTimers prev (prev + 1) A (orig.drop i) w)
    (hgqtime : w.s.gqtime = prev + 1)
    (hfit : ∀ r ∈ orig.drop i, (w.s.recs r).nextcall ≤ prev + 1 →
      (w.s.recs r).nextcall + (w.s.recs r).period < 9223372036854775808) :
    ∃ A' F', TickMemory orig orig.length A' F' (alarmLoop dels left i A.length w.s).1 ∧
      TickTimers prev (prev + 1) A' []
        { w with
          s := (alarmLoop dels left i A.length w.s).1
          timers := (alarmLoop dels left i A.length w.s).2.2.foldl (logEffect w.owner) w.timers } ∧
      (alarmLoop dels left i A.length w.s).2.1 = A'.length ∧
      (alarmLoop dels left i A.length w.s).1.gqtime = prev + 1 := by
  induction left generalizing i A F w with
  | zero =>
    obtain rfl : i = orig.length := by omega
    rw [drop_length] at h
    exact ⟨A, F, hmem, h, rfl, hgqtime⟩
  | succ left ih =>
    have hi : i < orig.length := by omega
    have hdrop := drop_eq_getElem_cons hi
    have hnot := hmem.turn_notMem hi
    have hother : ∀ x ∈ orig.drop (i + 1), x ≠ orig[i] ∧ x ∈ orig.drop i := by
      intro x hx
      refine ⟨fun he => hnot (mem_append_right _ (he ▸ hx)), ?_⟩
      rw [hdrop]
      exact mem_cons_of_mem _ hx
    have hr : orig[i] ∈ orig.drop i := by
      rw [hdrop]
      exact mem_cons_self
    have hqth := hmem.ahead i (Nat.le_refl i) hi
    rw [alarmLoop, hqth]
    by_cases hzero : (w.s.recs orig[i]).times = 0
    · -- deleted, or called often enough
      rw [if_pos hzero]
      have hupdate : ∀ x, x ≠ orig[i] →
          update w.s.recs orig[i] { w.s.recs orig[i] with arg := w.s.qtf } x = w.s.recs x :=
        fun x hx => update_of_ne hx _ _
      rw [hdrop] at h
      exact @ih A (orig[i] :: F) (i + 1)
        { w with s := { w.s with
            recs := update w.s.recs orig[i] { w.s.recs orig[i] with arg := w.s.qtf }, qtf := orig[i] } }
        (by omega) (hmem.release hi) (h.release hnot (by omega) hzero hupdate) hgqtime (by
          intro x hx
          dsimp only
          rw [hupdate x (hother x hx).1]
          exact hfit x (hother x hx).2)
    rw [if_neg hzero]
    dsimp only
    by_cases hnow : (w.s.recs orig[i]).nextcall ≤ w.s.gqtime
    · -- the timer runs
      rw [if_pos hnow, moveFront]
      rw [hgqtime] at hnow
      obtain ⟨hmem', htimers⟩ := turn_run hmem hi h hgqtime hprev hzero hnow (hfit _ hr hnow) (dels i)
      obtain ⟨hqth', hgqtime', hrecs⟩ := dels_fields (dels i) (advanceTimer orig[i] w.s)
      rw [← fire_fst] at hqth' hgqtime' hrecs
      rw [hmem'.ahead i (Nat.le_refl i) hi]
      obtain ⟨A', F', hA, hT, hj, hg⟩ := @ih (A ++ [orig[i]]) F (i + 1)
        { w with
          s := { (fire (dels i) orig[i] w.s).1 with
            qth := update (fire (dels i) orig[i] w.s).1.qth A.length orig[i] }
          timers := (fire (dels i) orig[i] w.s).2.foldl (logEffect w.owner) w.timers }
        (by omega) (hmem'.keep hi) (htimers.of_recs rfl) (hgqtime'.trans hgqtime) (by
          intro x hx
          have hsame : (advanceTimer orig[i] w.s).recs x = w.s.recs x := update_of_ne (hother x hx).1 _ _
          dsimp only
          rw [(hrecs x).1, (hrecs x).2, hsame]
          exact hfit x (hother x hx).2)
      rw [length_append, length_singleton] at hA hT hj hg
      refine ⟨A', F', hA, ?_, hj, hg⟩
      rw [foldl_append]
      exact hT
    -- its time has not come
    rw [if_neg hnow, moveFront, hqth, nil_append]
    rw [hgqtime] at hnow
    have hlen : A.length + 1 = (A ++ [orig[i]]).length := by
      rw [length_append, length_singleton]
    rw [hlen]
    exact @ih (A ++ [orig[i]]) F (i + 1) { w with s := _ } (by omega) (hmem.keep hi)
      (turn_idle hmem hi h hzero hnow) hgqtime (fun x hx => hfit x (hother x hx).2)

end

end Vde
