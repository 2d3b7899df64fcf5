import Vde.Proofs.QtimerTicks

/-!
# Timers run when they are due

Between two events the records of the active array are up to date, so every timer has run at the times
that have come. A record taken for a new timer is neither in the active array nor left in the free list.
-/

namespace Vde

open List Function

def activeRecs (s : QtState) : List Nat := (range s.activeqt).map s.qth

/-- All timers have run as they should; no record is in the active array and in the free list, or twice
in one of them; and the timers that go on have one record each. -/
structure TimersRight (w : QtRun) : Prop where
  right : ∀ id < w.added, TimerRight w.s.gqtime (w.timers id)
  apart : ∃ free, NextChain (fun r => (w.s.recs r).arg) w.s.qtf free ∧ (activeRecs w.s ++ free).Nodup
  once : ((activeRecs w.s).map w.owner).Nodup
  kept : ∀ id < w.added, ¬TimerOver (w.timers id) → id ∈ (activeRecs w.s).map w.owner

/-- The times that a step computes are values of a `time_t`, and a new timer gets a number that no
active one has. -/
def TimesFit (w : QtRun) : QtEvent → Prop
  | .add period times call _ => qtAccepts period times call →
      w.s.gqtime + period < 9223372036854775808 ∧ ∀ r ∈ activeRecs w.s, (w.s.recs r).n ≠ w.s.countqt
  | .del _ => True
  | .tick _ => w.s.gqtime + 1 < 9223372036854775808 ∧ ∀ r ∈ activeRecs w.s,
      (w.s.recs r).nextcall ≤ w.s.gqtime + 1 →
        (w.s.recs r).nextcall + (w.s.recs r).period < 9223372036854775808

/-! ## Calls and ticks -/

def QtInv (w : QtRun) : Prop :=
  0 ≤ w.s.gqtime ∧ ∃ A F, TickMemory A A.length A F w.s ∧ TickTimers w.s.gqtime w.s.gqtime A [] w

lemma QtInv.init : QtInv qtInit := by
  refine ⟨Int.le_refl 0, [], [], ?_, ?_⟩
  · refine ⟨Nat.one_ne_zero, rfl, le_rfl, le_rfl, ?_, ?_, ?_, Subset.refl _,
      nodup_nil, rfl, ?_, ?_⟩
    · intro k hk
      exact absurd hk (Nat.not_lt_zero k)
    · intro k _ hk
      exact absurd hk (Nat.not_lt_zero k)
    · intro k hk
      exact absurd hk (Nat.not_lt_zero k)
    · intro r hr
      exact absurd hr not_mem_nil
    · intro r hr
      exact absurd hr not_mem_nil
  refine ⟨?_, ?_, ?_, ?_, ?_, ?_, ?_, ?_⟩
  · intro r hr
    exact absurd hr not_mem_nil
  · intro r hr
    exact absurd hr not_mem_nil
  · intro r hr
    exact absurd hr not_mem_nil
  · intro r hr
    exact absurd hr not_mem_nil
  · intro id hid
    exact absurd hid (Nat.not_lt_zero id)
  · intro r hr
    exact absurd hr not_mem_nil
  · intro id hid
    exact absurd hid (Nat.not_lt_zero id)
  · intro id hid
    exact absurd hid (Nat.not_lt_zero id)

variable {s : QtState} {times : Int}

section

variable {A F : List Nat} {w : QtRun}

lemma TickMemory.activeRecs (h : TickMemory A A.length A F s) : activeRecs s = A := by
  rw [Vde.activeRecs]
  apply ext_getElem
  · rw [length_map, length_range, h.len]
  intro k _ hk
  rw [getElem_map, getElem_range, h.done k hk]

lemma QtInv.right (h : QtInv w) : TimersRight w := by
  obtain ⟨-, A, F, hmem, htimers⟩ := h
  have hact := hmem.activeRecs
  have hnil : A ++ A.drop A.length ++ F = A ++ F := by rw [drop_length, append_nil]
  refine ⟨?_, ?_, ?_, ?_⟩
  · intro id hid
    exact htimers.rightElse id hid (fun r hr => absurd hr not_mem_nil)
  · refine ⟨F, hmem.free, ?_⟩
    rw [hact, ← hnil]
    exact hmem.nodup
  · rw [hact]
    have hA : A.Nodup := by
      have hnodup := hmem.nodup
      rw [hnil] at hnodup
      exact (nodup_append'.mp hnodup).1
    apply Nodup.map_on _ hA
    intro r hr r' hr' he
    exact htimers.apart r (mem_append_left _ hr) r' (mem_append_left _ hr') he
  · intro id hid hnot
    obtain ⟨r, hr, hown⟩ := htimers.kept id hid hnot
    rw [append_nil] at hr
    rw [hact, ← hown]
    exact mem_map_of_mem hr

lemma QtInv.del (h : QtInv w) (n : Nat) : QtInv (qtStep w (.del n)) := by
  obtain ⟨hnow, A, F, hmem, htimers⟩ := h
  have hgqtime := (qtimerDel_fields n w.s).2.1
  have hlive : ∀ r ∈ A ++ [], r ∈ A ++ A.drop A.length := by
    intro r hr
    rwa [drop_length]
  have hdel : TickTimers w.s.gqtime w.s.gqtime A []
      { w with s := qtimerDel n w.s, timers := markDeleted n w.s.gqtime false w.timers } :=
    htimers.del hmem hlive n (Or.inl rfl)
  rw [qtStep]
  refine ⟨?_, A, F, hmem.del n, ?_⟩
  · rw [hgqtime]
    exact hnow
  rw [hgqtime]
  exact hdel

lemma TickMemory.begin (h : TickMemory A A.length A F s) (time : Int) :
    TickMemory A 0 [] F { s with gqtime := time } := by
  have hsame : [] ++ A.drop 0 ++ F = A ++ A.drop A.length ++ F := by
    rw [drop_zero, drop_length, append_nil, nil_append]
  refine ⟨h.top, h.len, Nat.zero_le _, Nat.zero_le _, ?_, ?_, h.old, nil_subset _, ?_, h.free, ?_, h.numbers⟩
  · intro k hk
    exact absurd hk (Nat.not_lt_zero k)
  · intro k _ hk
    exact h.done k hk
  · rw [hsame]
    exact h.nodup
  · rw [hsame]
    exact h.known

lemma TickTimers.begin {prev : Int} (h : TickTimers prev prev A [] w) (s : QtState)
    (hrecs : s.recs = w.s.recs) : TickTimers prev (prev + 1) [] A { w with s := s } := by
  refine ⟨?_, ?_, ?_, ?_, h.sound, ?_, ?_, ?_⟩
  · intro r hr
    exact h.owned r (mem_append_left _ hr)
  · intro r hr r' hr'
    exact h.apart r (mem_append_left _ hr) r' (mem_append_left _ hr')
  · intro r hr
    exact absurd hr not_mem_nil
  · intro r hr
    dsimp only
    rw [hrecs]
    exact h.front r hr
  · intro r hr
    apply h.rightElse _ (h.owned r (mem_append_left _ hr))
    intro x hx
    exact absurd hx not_mem_nil
  · intro id hid hne
    have hright := h.rightElse id hid (fun r hr => absurd hr not_mem_nil)
    have hover : TimerOver (w.timers id) := by
      by_contra hnot
      obtain ⟨r, hr, hown⟩ := h.kept id hid hnot
      rw [append_nil] at hr
      exact hne r hr hown
    exact hright.over (h.sound id hid) hover (by omega)
  · intro id hid hnot
    obtain ⟨r, hr, hown⟩ := h.kept id hid hnot
    rw [append_nil] at hr
    exact ⟨r, hr, hown⟩

lemma TickMemory.finish {orig : List Nat} (h : TickMemory orig orig.length A F s) :
    TickMemory A A.length A F { s with activeqt := A.length } := by
  have hsame : A ++ A.drop A.length ++ F = A ++ orig.drop orig.length ++ F := by
    rw [drop_length, drop_length]
  refine ⟨h.top, rfl, le_rfl, le_rfl, h.done, ?_, ?_, Subset.refl A, ?_, h.free, ?_, ?_⟩
  · intro k _ hk
    exact h.done k hk
  · intro k hk
    dsimp only
    rw [h.done k hk]
    exact getElem_mem hk
  · rw [hsame]
    exact h.nodup
  · rw [hsame]
    exact h.known
  · intro r hr r' hr'
    exact h.numbers r (h.sub hr) r' (h.sub hr')

lemma TickTimers.finish {prev now : Int} (h : TickTimers prev now A [] w) (hle : prev ≤ now)
    (hrecs : s.recs = w.s.recs) : TickTimers now now A [] { w with s := s } := by
  obtain ⟨howned, hapart, hfront, -, hsound, -, helse, hkept⟩ := h.of_recs hrecs
  refine ⟨howned, hapart, hfront, ?_, ?_, ?_, helse, hkept⟩
  · intro r hr
    exact absurd hr not_mem_nil
  · intro id hid
    have hold := hsound id hid
    exact ⟨hold.period, hold.limit, Int.le_trans hold.start hle⟩
  intro r hr
  exact absurd hr not_mem_nil

lemma QtInv.tick (h : QtInv w) {dels : Nat → List Nat} (hfit : TimesFit w (.tick dels)) :
    QtInv (qtStep w (.tick dels)) := by
  obtain ⟨hnow, A, F, hmem, htimers⟩ := h
  obtain ⟨htime, hcalls⟩ := hfit
  rw [hmem.activeRecs] at hcalls
  have hnext : toInt64 (w.s.gqtime + 1) = w.s.gqtime + 1 := toInt64_eq (by omega) htime
  obtain ⟨A', F', hA, hT, hj, hg⟩ := @alarmLoop_right w.s.gqtime A [] F 0
    { w with s := { w.s with gqtime := toInt64 (w.s.gqtime + 1) } } dels w.s.activeqt hnow
    (by rw [hmem.len, Nat.zero_add]) (hmem.begin _) (htimers.begin _ rfl) hnext hcalls
  have hstep : qtStep w (.tick dels) = { w with
      s := (sigAlarm dels w.s).1
      timers := (sigAlarm dels w.s).2.foldl (logEffect w.owner) w.timers } := rfl
  have hactive : (sigAlarm dels w.s).1 =
      { (alarmLoop dels w.s.activeqt 0 0 { w.s with gqtime := toInt64 (w.s.gqtime + 1) }).1 with
        activeqt := A'.length } := by
    rw [← hj]
    rfl
  have hgqtime : (sigAlarm dels w.s).1.gqtime = w.s.gqtime + 1 := by
    rw [hactive]
    exact hg
  rw [hstep]
  refine ⟨?_, A', F', ?_, ?_⟩
  · rw [hgqtime]
    omega
  · rw [hactive]
    exact hA.finish
  rw [hgqtime]
  exact hT.finish (by omega) rfl

structure Taken (A : List Nat) (s : QtState) (r : Nat) (F' : List Nat) : Prop where
  record : (if s.qtf = 0 then s.top else s.qtf) = r
  new : r ∉ A ++ F'
  notNull : r ≠ 0
  nodup : (A ++ F').Nodup
  below : r < if s.qtf = 0 then s.top + 1 else s.top
  known : ∀ x ∈ A ++ F', x ≠ 0 ∧ x < if s.qtf = 0 then s.top + 1 else s.top
  free : NextChain (fun r => (s.recs r).arg) (if s.qtf = 0 then 0 else (s.recs s.qtf).arg) F'

lemma TickMemory.take (h : TickMemory A A.length A F s) : ∃ r F', Taken A s r F' := by
  have hnil : A ++ A.drop A.length ++ F = A ++ F := by rw [drop_length, append_nil]
  have hknown := h.known
  have hnodup := h.nodup
  rw [hnil] at hknown hnodup
  by_cases hqtf : s.qtf = 0
  · -- a new record
    have hempty : F = [] := by
      have hfree := h.free
      rw [hqtf] at hfree
      cases F with
      | nil => rfl
      | cons b F => exact absurd hfree.1.symm hfree.2.1
    rw [hempty, append_nil] at hknown hnodup
    refine ⟨s.top, [], if_pos hqtf, ?_, h.top, ?_, ?_, ?_, ?_⟩
    · rw [append_nil]
      intro hmem
      exact absurd (hknown _ hmem).2 (Nat.lt_irrefl _)
    · rw [append_nil]
      exact hnodup
    · rw [if_pos hqtf]
      exact Nat.lt_succ_self _
    · rw [if_pos hqtf, append_nil]
      intro x hx
      exact ⟨(hknown x hx).1, Nat.lt_succ_of_lt (hknown x hx).2⟩
    · rw [if_pos hqtf]
      rfl
  obtain ⟨F', hF, hrest⟩ := h.free.pop hqtf
  rw [hF] at hknown hnodup
  obtain ⟨hnot, hnodup'⟩ := nodup_cons.mp (perm_middle.nodup_iff.mp hnodup)
  have hqtfmem : s.qtf ∈ A ++ s.qtf :: F' := mem_append_right _ mem_cons_self
  refine ⟨s.qtf, F', if_neg hqtf, hnot, hqtf, hnodup', ?_, ?_, ?_⟩
  · rw [if_neg hqtf]
    exact (hknown _ hqtfmem).2
  · rw [if_neg hqtf]
    intro x hx
    apply hknown x
    rcases mem_append.mp hx with hx | hx
    · exact mem_append_left _ hx
    · exact mem_append_right _ (mem_cons_of_mem _ hx)
  rw [if_neg hqtf]
  exact hrest

lemma qtTimes_pos (h : 0 ≤ times) : 0 < qtTimes times := by
  rw [qtTimes]
  split
  · decide
  · omega

lemma newTimer_carries {number : Nat} {now period times : Int} (call arg : Nat) (hp : 0 < period) (hnow : 0 ≤ now)
    (hfit : now + period < 9223372036854775808) (ht : 0 ≤ times) :
    CarriesTimer now ⟨number, period, toInt64 (now + period), qtTimes times, call, arg⟩
        ⟨number, now, period, qtTimes times, call, arg, [], none⟩ ∧
      TimerRight now ⟨number, now, period, qtTimes times, call, arg, [], none⟩ ∧
      TimerSound now ⟨number, now, period, qtTimes times, call, arg, [], none⟩ := by
  have hnone : due ⟨number, now, period, qtTimes times, call, arg, [], none⟩ now = 0 := by
    apply due_eq hp (Nat.zero_le _)
    · dsimp only
      omega
    intro _
    dsimp only
    omega
  refine ⟨⟨rfl, rfl, rfl, rfl, fun _ => ?_, fun hgone => absurd rfl hgone⟩, ⟨fun _ => ?_, ?_⟩,
    ⟨hp, qtTimes_pos ht, Int.le_refl now⟩⟩
  · rw [hnone]
    refine ⟨rfl, fun _ => ?_⟩
    dsimp only
    rw [toInt64_eq (by omega) hfit]
    omega
  · rw [hnone]
    rfl
  intro d hd
  exact absurd hd (by simp)

lemma TickMemory.add (h : TickMemory A A.length A F s) {r : Nat} {F' : List Nat}
    (ht : Taken A s r F') {period : Int} {call arg : Nat} (hacc : qtAccepts period times call = true)
    (hnumber : ∀ x ∈ A, (s.recs x).n ≠ s.countqt) :
    TickMemory (A ++ [r]) (A ++ [r]).length (A ++ [r]) F' (qtimerAdd period times call arg s).1 := by
  have hrA : ∀ x ∈ A, x ≠ r := fun x hx he => ht.new (mem_append_left _ (he ▸ hx))
  have hrF : ∀ x ∈ F', x ≠ r := fun x hx he => ht.new (mem_append_right _ (he ▸ hx))
  have hlen : s.activeqt = A.length := h.len
  have hplus : (A ++ [r]).length = A.length + 1 := by rw [length_append, length_singleton]
  have hdone : ∀ k, (hk : k < (A ++ [r]).length) → update s.qth s.activeqt r k = (A ++ [r])[k] := by
    intro k hk
    rw [hlen]
    by_cases hka : k = A.length
    · subst hka
      rw [update_self, getElem_append_right le_rfl]
      simp
    rw [update_of_ne hka, getElem_append_left (by omega)]
    exact h.done k (by omega)
  have hsame : A ++ [r] ++ (A ++ [r]).drop (A ++ [r]).length ++ F' = A ++ r :: F' := by
    rw [drop_length, append_nil, append_assoc, singleton_append]
  have hbelow := ht.below
  rw [qtimerAdd, if_pos hacc]
  dsimp only
  rw [ht.record]
  refine ⟨?_, ?_, le_rfl, le_rfl, hdone, ?_, ?_, Subset.refl _, ?_, ?_, ?_, ?_⟩
  · dsimp only
    omega
  · dsimp only
    omega
  · intro k _ hk
    exact hdone k hk
  · intro k hk
    dsimp only
    rw [hdone k hk]
    exact getElem_mem hk
  · rw [hsame]
    exact perm_middle.nodup_iff.mpr (nodup_cons.mpr ⟨ht.new, ht.nodup⟩)
  · apply ht.free.congr
    intro x hx
    dsimp only
    rw [update_of_ne (hrF x hx)]
  · rw [hsame]
    intro x hx
    rcases mem_cons.mp (perm_middle.mem_iff.mp hx) with rfl | hx
    · exact ⟨ht.notNull, ht.below⟩
    · exact ht.known x hx
  · -- the new number is not in use
    intro x hx y hy he
    dsimp only at he
    rcases mem_append.mp hx with hx | hx
    · rw [update_of_ne (hrA x hx)] at he
      rcases mem_append.mp hy with hy | hy
      · rw [update_of_ne (hrA y hy)] at he
        exact h.numbers x hx y hy he
      rw [mem_singleton.mp hy, update_self] at he
      exact absurd he (hnumber x hx)
    rw [mem_singleton.mp hx, update_self] at he
    rcases mem_append.mp hy with hy | hy
    · rw [update_of_ne (hrA y hy)] at he
      exact absurd he.symm (hnumber y hy)
    · rw [mem_singleton.mp hx, mem_singleton.mp hy]

lemma TickTimers.add {now : Int} (h : TickTimers now now A [] w) {r : Nat} (hrA : ∀ x ∈ A, x ≠ r)
    {rec : QtTimer} {t : TimerLog} (hcarries : CarriesTimer now rec t) (hright : TimerRight now t)
    (hsound : TimerSound now t) (hrecs : s.recs = update w.s.recs r rec) :
    TickTimers now now (A ++ [r]) []
      { s := s
        timers := update w.timers w.added t
        added := w.added + 1
        owner := update w.owner r w.added } := by
  have hold : ∀ x ∈ A, w.owner x < w.added := fun x hx => h.owned x (mem_append_left _ hx)
  have hbefore : ∀ id < w.added + 1, id ≠ w.added → id < w.added :=
    fun id hid he => Nat.lt_of_le_of_ne (Nat.le_of_lt_succ hid) he
  refine ⟨?_, ?_, ?_, ?_, ?_, ?_, ?_, ?_⟩
  · rw [append_nil]
    intro x hx
    dsimp only
    rcases mem_append.mp hx with hx | hx
    · rw [update_of_ne (hrA x hx)]
      exact Nat.lt_succ_of_lt (hold x hx)
    rw [mem_singleton.mp hx, update_self]
    exact Nat.lt_succ_self _
  · rw [append_nil]
    intro x hx y hy he
    dsimp only at he
    rcases mem_append.mp hx with hx | hx
    · rw [update_of_ne (hrA x hx)] at he
      rcases mem_append.mp hy with hy | hy
      · rw [update_of_ne (hrA y hy)] at he
        exact h.apart x (mem_append_left _ hx) y (mem_append_left _ hy) he
      rw [mem_singleton.mp hy, update_self] at he
      exact absurd he (hold x hx).ne
    rw [mem_singleton.mp hx, update_self] at he
    rcases mem_append.mp hy with hy | hy
    · rw [update_of_ne (hrA y hy)] at he
      exact absurd he.symm (hold y hy).ne
    · rw [mem_singleton.mp hx, mem_singleton.mp hy]
  · intro x hx
    dsimp only
    rw [hrecs]
    rcases mem_append.mp hx with hx | hx
    · rw [update_of_ne (hrA x hx), update_of_ne (hrA x hx),
        update_of_ne (hold x hx).ne]
      exact h.front x hx
    rw [mem_singleton.mp hx, update_self, update_self, update_self]
    exact hcarries
  · intro x hx
    exact absurd hx not_mem_nil
  · intro id hid
    dsimp only
    by_cases he : id = w.added
    · rw [he, update_self]
      exact hsound
    rw [update_of_ne he]
    exact h.sound id (hbefore id hid he)
  · intro x hx
    exact absurd hx not_mem_nil
  · intro id hid _
    dsimp only
    by_cases he : id = w.added
    · rw [he, update_self]
      exact hright
    rw [update_of_ne he]
    exact h.rightElse id (hbefore id hid he) (fun x hx => absurd hx not_mem_nil)
  · intro id hid hnot
    dsimp only at hnot ⊢
    by_cases he : id = w.added
    · refine ⟨r, by simp, ?_⟩
      rw [he, update_self]
    rw [update_of_ne he] at hnot
    obtain ⟨x, hx, hown⟩ := h.kept id (hbefore id hid he) hnot
    rw [append_nil] at hx
    refine ⟨x, by simp [hx], ?_⟩
    rw [update_of_ne (hrA x hx)]
    exact hown

lemma QtInv.add (h : QtInv w) {period : Int} {call arg : Nat}
    (hfit : TimesFit w (.add period times call arg)) : QtInv (qtStep w (.add period times call arg)) := by
  obtain ⟨hnow, A, F, hmem, htimers⟩ := h
  rw [qtStep]
  by_cases hacc : qtAccepts period times call = true
  · obtain ⟨hsum, hnumber⟩ := hfit hacc
    obtain ⟨hp, -, ht⟩ := of_decide_eq_true hacc
    rw [hmem.activeRecs] at hnumber
    obtain ⟨r, F', htaken⟩ := hmem.take
    obtain ⟨hcarries, hright, hsound⟩ :=
      @newTimer_carries w.s.countqt w.s.gqtime period times call arg hp hnow hsum ht
    have hqth : (qtimerAdd period times call arg w.s).1.qth w.s.activeqt = r := by
      rw [qtimerAdd, if_pos hacc, htaken.record]
      exact update_self _ _ _
    have hgqtime : (qtimerAdd period times call arg w.s).1.gqtime = w.s.gqtime := by
      rw [qtimerAdd, if_pos hacc]
    have hcount : (qtimerAdd period times call arg w.s).2 = w.s.countqt := by rw [qtimerAdd, if_pos hacc]
    rw [if_pos hacc, hqth, hcount]
    refine ⟨?_, A ++ [r], F', hmem.add htaken hacc hnumber, ?_⟩
    · dsimp only
      rw [hgqtime]
      exact hnow
    dsimp only
    rw [hgqtime]
    have hother : ∀ x ∈ A, x ≠ r := by
      intro x hx he
      rw [he] at hx
      exact htaken.new (mem_append_left _ hx)
    apply htimers.add hother hcarries hright hsound
    rw [qtimerAdd, if_pos hacc, htaken.record]
  · rw [if_neg hacc, qtimerAdd, if_neg hacc]
    exact ⟨hnow, A, F, hmem, htimers⟩

end

/-- In every run whose times are values of a `time_t` and whose new timers get numbers that are not in use,
all timers run when they are due and not after their deletion, no timer is lost or has two records, and the
active array shares no record with the free list. -/
theorem timers_right (es : List QtEvent) (hes : qtMachine.Along TimesFit qtInit es) :
    qtMachine.Always TimersRight qtInit es := by
  apply Machine.Along.always QtInv (fun w h => h.right) _ QtInv.init hes
  intro w e h hfit
  cases e with
  | add period times call arg => exact h.add hfit
  | del n => exact h.del n
  | tick dels => exact h.tick hfit

/-- A timer of two runs, and one that the first run of it deletes. -/
theorem timers_right_two :
    qtMachine.Always TimersRight qtInit
      [.add 1 2 7 0, .add 1 0 8 0, .tick (fun i => if i = 0 then [1] else []), .tick (fun _ => [])] := by
  apply timers_right
  refine ⟨?_, ?_, ?_, ?_, trivial⟩
  · intro _
    exact ⟨by decide, fun r hr => absurd hr not_mem_nil⟩
  · intro _
    refine ⟨by decide, ?_⟩
    decide
  · refine ⟨by decide, ?_⟩
    decide
  · refine ⟨by decide, ?_⟩
    decide

/-! ## Runs outside of the hypothesis -/

def renewal (n : Nat) : List QtEvent := [.add 2 1 8 0, .del n, .tick (fun _ => [])]

structure Renewed (m : Nat) (w : QtRun) : Prop where
  time : w.s.gqtime = m
  active : w.s.activeqt = 1
  first : w.s.qth 0 = 1
  stays : w.s.recs 1 = ⟨0, 1099511627776, 1099511627776, 4294967295, 7, 0⟩
  free : w.s.qtf = 2
  last : (w.s.recs 2).arg = 0
  count : w.s.countqt = toUInt (m + 1)

lemma Renewed.next {m : Nat} {w : QtRun} (h : Renewed m w) (hm : m + 1 < 4294967296) :
    Renewed (m + 1) (qtMachine.run w (renewal (m + 1))) := by
  obtain ⟨htime, hactive, hfirst, hstays, hfree, hlast, hcount⟩ := h
  have hnum : toUInt (m + 1) = m + 1 := Nat.mod_eq_of_lt hm
  have hnow : toInt64 ((m : Int) + 1) = m + 1 := toInt64_eq (by omega) (by omega)
  have hlate : ¬(1099511627776 : Int) ≤ (m : Int) + 1 := by omega
  rw [hnum] at hcount
  constructor <;>
    simp [qtMachine, Machine.run, renewal, qtStep, qtimerAdd, qtAccepts, qtimerDel, sigAlarm, alarmLoop, htime, hactive,
      hfirst, hstays, hfree, hlast, hcount, hnow, hlate, range_succ, update_apply]

lemma Renewed.run {m : Nat} {w : QtRun} (h : Renewed 1 w) (hm : m + 1 < 4294967296) :
    Renewed (m + 1) (qtMachine.run w ((range' 2 m).flatMap renewal)) := by
  induction m with
  | zero => exact h
  | succ m ih =>
    have hlast : (range' 2 (m + 1)).flatMap renewal = (range' 2 m).flatMap renewal ++ renewal (m + 2) := by
      rw [range'_concat, flatMap_append, flatMap_singleton, Nat.one_mul, Nat.add_comm 2 m]
    rw [hlast, Machine.run, foldl_append]
    exact (ih (by omega)).next hm

lemma Renewed.wrong {w : QtRun} (h : Renewed 4294967295 w) :
    ¬TimersRight (qtMachine.run w [.add 1 1 8 0, .del 0, .tick (fun _ => [])]) := by
  obtain ⟨htime, hactive, hfirst, hstays, hfree, hlast, hcount⟩ := h
  have hnum : toUInt (4294967295 + 1) = 0 := by decide
  have hnow : toInt64 4294967296 = 4294967296 := by decide
  rw [hnum] at hcount
  intro hright
  have hadded : (qtMachine.run w [.add 1 1 8 0, .del 0, .tick (fun _ => [])]).added = w.added + 1 := by
    simp [qtMachine, Machine.run, qtStep, qtAccepts]
  have hlog : (qtMachine.run w [.add 1 1 8 0, .del 0, .tick (fun _ => [])]).timers w.added =
      ⟨0, 4294967295, 1, 1, 8, 0, [(4294967296, 8, 0)], some ⟨4294967295, false, 0⟩⟩ := by
    simp [qtMachine, Machine.run, qtStep, qtimerAdd, qtAccepts, qtimerDel, sigAlarm, alarmLoop, fire, markDeleted,
      logEffect, qtTimes, htime, hactive, hfirst, hstays, hfree, hlast, hcount, hnow, range_succ,
      update_apply]
  have hrun := hright.right w.added (by omega)
  rw [hlog] at hrun
  exact absurd (hrun.gone _ rfl).1 (by decide)

lemma Renewed.init : Renewed 1 (qtMachine.run qtInit (.add 1099511627776 0 7 0 :: renewal 1)) := by
  constructor <;> decide

/-- A period that takes the next call past the largest `time_t` makes its timer run at the next tick, and when
the numbers have come round, deleting the second timer with a number deletes the first. -/
theorem late_and_renumbered_wrong :
    ¬qtMachine.Always TimersRight qtInit
        [.tick (fun _ => []), .add 9223372036854775807 1 7 0, .tick (fun _ => [])] ∧
      ¬qtMachine.Always TimersRight qtInit
        (.add 1099511627776 0 7 0 :: renewal 1 ++ (range' 2 4294967294).flatMap renewal ++
          [.add 1 1 8 0, .del 0, .tick (fun _ => [])]) := by
  constructor
  · intro h
    obtain ⟨-, -, -, hlast⟩ := h
    have hright := hlast.right 0 (by decide)
    have hran := hright.live (by decide)
    exact absurd hran (by decide)
  intro h
  have hlast := h.last
  rw [Machine.run, foldl_append, foldl_append] at hlast
  exact (Renewed.init.run (by omega)).wrong hlast

end Vde
