import Vde.MgmtTable

/-!
# The table of management connections

`delmgmtconn` moves the entries behind the closed one down and then clears the entry with the old number of
entries, not the last one that was in use. The entry left over keeps its descriptor and its debug level, and
with a full table the entry that is cleared lies behind the arrays.
-/

namespace Vde

open List Function

def connections (s : MgmtTable) : List (Int × Int) :=
  (range' s.start (s.npfd - s.start)).map (fun i => ((s.pfd i).fd, s.debuglevel i))

/-- The entries that are not in use are cleared, no element behind the arrays has been written, and transitions
are printed to connections only. -/
structure MgmtRight (s : MgmtTable) : Prop where
  tail : ∀ i, s.npfd ≤ i → i < NPFD → (s.pfd i).fd = -1 ∧ s.debuglevel i = 0
  inside : s.outside = false
  live : ∀ fd ∈ printed s, ∃ i, s.start ≤ i ∧ i < s.npfd ∧ fd = outputFd (s.pfd i).fd

def KeepsConnections (s : MgmtTable) : MgmtEvent → Prop
  | .accept new =>
    connections (newmgmtconn new s) = connections s ∨
      ∃ fd, new = some fd ∧ connections (newmgmtconn new s) = connections s ++ [(fd, 0)]
  | .del i =>
    connections (delmgmtconn i s) = connections s ∨
      connections (delmgmtconn i s) = (connections s).eraseIdx (i - s.start)
  | .hangups hup => (connections (hangups hup s)).Sublist (connections s)
  | .debug i n =>
    connections (mgmtStep s (.debug i n)) =
      if 0 ≤ n then (connections s).set (i - s.start) ((s.pfd i).fd, toChar n) else connections s

def NoneClosed (s : MgmtTable) : MgmtEvent → Prop
  | .del i => s.npfd ≤ i ∨ (s.pfd i).fd = 0
  | .hangups hup =>
    ∀ i, s.start ≤ i → i < s.npfd → hup i = true → ∃ j, s.start ≤ j ∧ j ≤ i ∧ hup j = true ∧ (s.pfd j).fd = 0
  | _ => True

/-- What holds of the table as long as no connection has been closed. -/
structure MgmtInv (s : MgmtTable) : Prop where
  fits : s.npfd ≤ NPFD
  order : s.start ≤ s.npfd
  used : ∀ i < s.npfd, 0 ≤ (s.pfd i).fd ∧ (s.pfd i).fd ≠ 1
  apart : ∀ i < s.npfd, ∀ j < s.npfd, (s.pfd i).fd = (s.pfd j).fd → i = j
  free : ∀ i, s.npfd ≤ i → (s.pfd i).fd = -1
  quiet : ∀ i, i < s.start ∨ s.npfd ≤ i → s.debuglevel i = 0
  inside : s.outside = false

/-- The entry behind the last one in use still has its descriptor. -/
structure StaleEntry (s : MgmtTable) : Prop where
  fits : s.npfd < NPFD
  used : ∀ i ≤ s.npfd, 0 ≤ (s.pfd i).fd

variable {i : Nat}

section

variable {s s' : MgmtTable}

lemma MgmtStart.inv (hs : MgmtStart s) : MgmtInv s :=
  ⟨hs.fits, hs.order, hs.used, hs.apart, hs.free, fun i _ => hs.quiet i, hs.inside⟩

lemma MgmtInv.right (hs : MgmtInv s) : MgmtRight s := by
  refine ⟨?_, hs.inside, ?_⟩
  · intro i hi _
    exact ⟨hs.free i hi, hs.quiet i (.inr hi)⟩
  intro fd hfd
  obtain ⟨j, hj, rfl⟩ := mem_map.mp hfd
  have hlevel : 0 < s.debuglevel j := of_decide_eq_true (mem_filter.mp hj).2
  have hlow : ¬j < s.start := by
    intro h
    have hzero := hs.quiet j (.inl h)
    omega
  have hhigh : ¬s.npfd ≤ j := by
    intro h
    have hzero := hs.quiet j (.inr h)
    omega
  exact ⟨j, Nat.not_lt.mp hlow, Nat.not_le.mp hhigh, rfl⟩

lemma StaleEntry.not_right (hs : StaleEntry s) : ¬MgmtRight s := by
  intro h
  have hcleared := (h.tail s.npfd le_rfl hs.fits).1
  have hused := hs.used s.npfd le_rfl
  omega

/-! ### Connections -/

lemma connections_newmgmtconn (horder : s.start ≤ s.npfd) (fd : Int) (hroom : s.npfd < NPFD) :
    connections (newmgmtconn (some fd) s) = connections s ++ [(fd, 0)] := by
  have hcount : s.npfd + 1 - s.start = s.npfd - s.start + 1 := by omega
  have hlast : s.start + (s.npfd - s.start) = s.npfd := by omega
  rw [newmgmtconn, if_pos hroom, connections, connections]
  dsimp only
  rw [hcount, range'_concat, Nat.one_mul, hlast, map_append]
  congr 1
  · apply map_congr_left
    intro i hi
    have hne : i ≠ s.npfd := by
      rw [mem_range'_1] at hi
      omega
    rw [update_of_ne hne, update_of_ne hne]
  · rw [map_singleton, update_self, update_self]

lemma connections_delmgmtconn (hi : s.start ≤ i) (hlive : i < s.npfd) (hfd : (s.pfd i).fd ≠ 0) :
    connections (delmgmtconn i s) = (connections s).eraseIdx (i - s.start) := by
  rw [delmgmtconn, if_pos hlive, if_neg hfd, connections, connections]
  dsimp only
  apply ext_getElem
  · simp only [length_map, length_range', length_eraseIdx]
    rw [if_pos (by omega)]
    omega
  intro k hk hk'
  have hshort : k < s.npfd - 1 - s.start := by simpa using hk
  have hne : s.start + k ≠ s.npfd := by omega
  rw [getElem_eraseIdx]
  simp only [getElem_map, getElem_range', Nat.one_mul, update_of_ne hne, shiftDown]
  by_cases hbefore : k < i - s.start
  · rw [if_neg (by omega), if_neg (by omega), dif_pos hbefore]
  have hnext : s.start + k + 1 = s.start + (k + 1) := by omega
  rw [if_pos (by omega), if_pos (by omega), dif_neg hbefore, hnext]

lemma delmgmtconn_sublist (hi : s.start ≤ i) : (connections (delmgmtconn i s)).Sublist (connections s) := by
  by_cases hlive : i < s.npfd
  · by_cases hfd : (s.pfd i).fd = 0
    · rw [delmgmtconn, if_pos hlive, if_pos hfd]
      exact Sublist.refl _
    rw [connections_delmgmtconn hi hlive hfd]
    exact eraseIdx_sublist _ _
  · rw [delmgmtconn, if_neg hlive]

lemma delmgmtconn_start (i : Nat) : (delmgmtconn i s).start = s.start := by
  rw [delmgmtconn]
  split
  · split
    · rfl
    · rfl
  · rfl

lemma hangupLoop_sublist {turns i : Nat} (hi : s.start ≤ i) :
    (connections (hangupLoop turns i s)).Sublist (connections s) := by
  induction turns generalizing i s with
  | zero => exact Sublist.refl _
  | succ turns ih =>
    rw [hangupLoop]
    split
    · split
      · have hstart := @delmgmtconn_start s i
        exact (ih (by omega)).trans (delmgmtconn_sublist hi)
      · exact ih (by omega)
    · exact Sublist.refl _

lemma hangups_sublist (hup : Nat → Bool) : (connections (hangups hup s)).Sublist (connections s) :=
  @hangupLoop_sublist { s with pfd := fun i => { s.pfd i with hup := hup i } } s.npfd s.start le_rfl

/-! ### Steps that close no connection -/

structure SameTable (s s' : MgmtTable) : Prop where
  fd : ∀ i, (s'.pfd i).fd = (s.pfd i).fd
  level : s'.debuglevel = s.debuglevel
  npfd : s'.npfd = s.npfd
  start : s'.start = s.start
  outside : s'.outside = s.outside

lemma MgmtInv.same (hs : MgmtInv s) (h : SameTable s s') : MgmtInv s' := by
  obtain ⟨hfd, hlevel, hnpfd, hstart, houtside⟩ := h
  refine ⟨?_, ?_, ?_, ?_, ?_, ?_, ?_⟩
  · rw [hnpfd]
    exact hs.fits
  · rw [hnpfd, hstart]
    exact hs.order
  · intro i hi
    rw [hfd]
    exact hs.used i (hnpfd ▸ hi)
  · intro i hi j hj heq
    rw [hfd, hfd] at heq
    exact hs.apart i (hnpfd ▸ hi) j (hnpfd ▸ hj) heq
  · intro i hi
    rw [hfd]
    exact hs.free i (hnpfd ▸ hi)
  · intro i hi
    rw [hlevel]
    rw [hstart, hnpfd] at hi
    exact hs.quiet i hi
  · rw [houtside]
    exact hs.inside

lemma SameTable.refl (s : MgmtTable) : SameTable s s := ⟨fun _ => rfl, rfl, rfl, rfl, rfl⟩

lemma hangupLoop_same {turns : Nat}
    (h : ∀ k, i ≤ k → k < s.npfd → (s.pfd k).hup = true → ∃ j, i ≤ j ∧ j ≤ k ∧ (s.pfd j).hup = true ∧ (s.pfd j).fd = 0) :
    SameTable s (hangupLoop turns i s) := by
  induction turns generalizing i with
  | zero => exact .refl s
  | succ turns ih =>
    rw [hangupLoop]
    by_cases hrun : i < s.npfd ∧ s.exited = false
    · rw [if_pos hrun]
      by_cases hhup : (s.pfd i).hup = true
      · obtain ⟨j, hlow, hhigh, -, hfd⟩ := h i le_rfl hrun.1 hhup
        have hj : j = i := Nat.le_antisymm hhigh hlow
        subst hj
        -- the filter exits, and the loop goes no further
        have hexit : hangupLoop turns (j + 1) { s with exited := true } = { s with exited := true } := by
          cases turns with
          | zero => rfl
          | succ turns => rw [hangupLoop, if_neg (fun hgo => Bool.noConfusion hgo.2)]
        rw [if_pos hhup, delmgmtconn, if_pos hrun.1, if_pos hfd, hexit]
        exact ⟨fun _ => rfl, rfl, rfl, rfl, rfl⟩
      rw [if_neg hhup]
      apply ih
      intro k hlow hhigh hk
      obtain ⟨j, hj, hjk, hjhup, hfd⟩ := h k (by omega) hhigh hk
      have hne : j ≠ i := by
        intro heq
        exact hhup (heq ▸ hjhup)
      exact ⟨j, by omega, hjk, hjhup, hfd⟩
    rw [if_neg hrun]
    exact .refl s

lemma MgmtInv.find (hs : MgmtInv s) (hlive : i < s.npfd) :
    (range NPFD).find? (fun j => (s.pfd j).fd == (s.pfd i).fd) = some i := by
  have hused := hs.used i hlive
  have hfits := hs.fits
  rw [find?_range_eq_some]
  refine ⟨beq_self_eq_true _, mem_range.mpr (by omega), ?_⟩
  intro j hj
  have hne : (s.pfd j).fd ≠ (s.pfd i).fd := by
    intro heq
    have hsame := hs.apart j (by omega) i hlive heq
    omega
  simpa using hne

lemma MgmtInv.setmarkovDebug (hs : MgmtInv s) (hlive : i < s.npfd) (n : Int) :
    setmarkovDebug (outputFd (s.pfd i).fd) n s =
      if 0 ≤ n then { s with debuglevel := update s.debuglevel i (toChar n) } else s := by
  obtain ⟨hpos, hne⟩ := hs.used i hlive
  have hback : (if outputFd (s.pfd i).fd = 1 then 0 else outputFd (s.pfd i).fd) = (s.pfd i).fd := by
    rw [outputFd]
    by_cases hzero : (s.pfd i).fd = 0
    · rw [if_pos hzero, if_pos rfl, hzero]
    · rw [if_neg hzero, if_neg hne]
  have hout : 0 ≤ outputFd (s.pfd i).fd := by
    rw [outputFd]
    split
    · decide
    · exact hpos
  rw [Vde.setmarkovDebug]
  by_cases hn : 0 ≤ n
  · rw [if_pos ⟨hout, hn⟩, if_pos hn]
    dsimp only
    rw [hback, hs.find hlive]
  · rw [if_neg (fun h => hn h.2), if_neg hn]

lemma MgmtInv.debug_connections (hs : MgmtInv s) (hi : s.start ≤ i) (hlive : i < s.npfd) (n : Int) :
    connections (Vde.setmarkovDebug (outputFd (s.pfd i).fd) n s) =
    if 0 ≤ n then (connections s).set (i - s.start) ((s.pfd i).fd, toChar n) else connections s := by
  rw [hs.setmarkovDebug hlive]
  split
  · rw [connections, connections]
    apply ext_getElem
    · simp
    intro k hk hk'
    rw [getElem_set]
    simp only [getElem_map, getElem_range', Nat.one_mul]
    by_cases heq : i - s.start = k
    · have hplace : s.start + k = i := by omega
      rw [if_pos heq, hplace, update_self]
    · rw [if_neg heq, update_of_ne (by omega)]
  · rfl

lemma MgmtInv.accept (hs : MgmtInv s) {new : Option Int}
    (hnew : ∀ fd, new = some fd → 2 < fd ∧ ∀ i < s.npfd, (s.pfd i).fd ≠ fd) : MgmtInv (newmgmtconn new s) := by
  cases new with
  | none => exact hs
  | some fd =>
    obtain ⟨hfd, hfresh⟩ := hnew fd rfl
    by_cases hroom : s.npfd < NPFD
    · have horder := hs.order
      have hold : ∀ i, i ≠ s.npfd →
          (update s.pfd s.npfd { s.pfd s.npfd with fd := fd } i).fd = (s.pfd i).fd := by
        intro i hne
        rw [update_of_ne hne]
      have hlast : (update s.pfd s.npfd { s.pfd s.npfd with fd := fd } s.npfd).fd = fd := by
        rw [update_self]
      rw [newmgmtconn, if_pos hroom]
      refine ⟨hroom, by dsimp only; omega, ?_, ?_, ?_, ?_, hs.inside⟩
      · intro i hi
        dsimp only at hi ⊢
        by_cases heq : i = s.npfd
        · rw [heq, hlast]
          omega
        rw [hold i heq]
        exact hs.used i (by omega)
      · intro i hi j hj
        dsimp only at hi hj ⊢
        by_cases hilast : i = s.npfd
        · by_cases hjlast : j = s.npfd
          · exact fun _ => hilast.trans hjlast.symm
          rw [hilast, hlast, hold j hjlast]
          exact fun h => absurd h.symm (hfresh j (by omega))
        by_cases hjlast : j = s.npfd
        · rw [hjlast, hlast, hold i hilast]
          exact fun h => absurd h (hfresh i (by omega))
        rw [hold i hilast, hold j hjlast]
        exact hs.apart i (by omega) j (by omega)
      · intro i hi
        dsimp only at hi ⊢
        rw [hold i (by omega)]
        exact hs.free i (by omega)
      · intro i hi
        dsimp only at hi ⊢
        by_cases heq : i = s.npfd
        · rw [heq, update_self]
        rw [update_of_ne heq]
        exact hs.quiet i (by omega)
    · rw [newmgmtconn, if_neg hroom]
      exact hs

lemma MgmtInv.debug (hs : MgmtInv s) (hi : s.start ≤ i) (hlive : i < s.npfd) (n : Int) :
    MgmtInv (Vde.setmarkovDebug (outputFd (s.pfd i).fd) n s) := by
  rw [hs.setmarkovDebug hlive]
  split
  · refine ⟨hs.fits, hs.order, hs.used, hs.apart, hs.free, ?_, hs.inside⟩
    intro j hj
    dsimp only at hj ⊢
    rw [update_of_ne (by omega)]
    exact hs.quiet j hj
  · exact hs

lemma MgmtInv.step (hs : MgmtInv s) {e : MgmtEvent} (he : e.Legal s) (hnone : NoneClosed s e) :
    MgmtInv (mgmtStep s e) ∧ KeepsConnections s e := by
  cases e with
  | accept new =>
    refine ⟨hs.accept he.2, ?_⟩
    cases new with
    | none => exact .inl rfl
    | some fd =>
      by_cases hroom : s.npfd < NPFD
      · exact .inr ⟨fd, rfl, connections_newmgmtconn hs.order fd hroom⟩
      refine .inl ?_
      rw [newmgmtconn, if_neg hroom]
  | del i =>
    have hsame : SameTable s (delmgmtconn i s) ∧ connections (delmgmtconn i s) = connections s := by
      rw [delmgmtconn]
      by_cases hlive : i < s.npfd
      · have hfd : (s.pfd i).fd = 0 := hnone.resolve_left (Nat.not_le.mpr hlive)
        rw [if_pos hlive, if_pos hfd]
        exact ⟨⟨fun _ => rfl, rfl, rfl, rfl, rfl⟩, rfl⟩
      rw [if_neg hlive]
      exact ⟨.refl s, rfl⟩
    exact ⟨hs.same hsame.1, .inl hsame.2⟩
  | hangups hup =>
    have hflags : SameTable s { s with pfd := fun i => { s.pfd i with hup := hup i } } :=
      ⟨fun _ => rfl, rfl, rfl, rfl, rfl⟩
    exact ⟨(hs.same hflags).same (hangupLoop_same hnone), hangups_sublist hup⟩
  | debug i n => exact ⟨hs.debug he.2.1 he.2.2 n, hs.debug_connections he.2.1 he.2.2 n⟩

/-! ### Steps that close one -/

lemma delmgmtconn_stale (hfits : s.npfd ≤ NPFD) (hused : ∀ j < s.npfd, 0 ≤ (s.pfd j).fd)
    (hlive : i < s.npfd) (hfd : (s.pfd i).fd ≠ 0) : StaleEntry (delmgmtconn i s) := by
  rw [delmgmtconn, if_pos hlive, if_neg hfd]
  refine ⟨by dsimp only; omega, ?_⟩
  intro j hj
  dsimp only at hj ⊢
  rw [update_of_ne (by omega), shiftDown]
  split
  · exact hused (j + 1) (by omega)
  · exact hused j (by omega)

lemma StaleEntry.hangupLoop (hs : StaleEntry s) (turns i : Nat) : StaleEntry (hangupLoop turns i s) := by
  induction turns generalizing i s with
  | zero => exact hs
  | succ turns ih =>
    rw [Vde.hangupLoop]
    split
    · next hrun =>
      split
      · apply ih
        by_cases hfd : (s.pfd i).fd = 0
        · rw [delmgmtconn, if_pos hrun.1, if_pos hfd]
          exact ⟨hs.fits, hs.used⟩
        have hfits := hs.fits
        exact delmgmtconn_stale (by omega) (fun j hj => hs.used j (by omega)) hrun.1 hfd
      · exact ih hs _
    · exact hs

lemma hangupLoop_stale {turns k : Nat} (hfits : s.npfd ≤ NPFD) (hused : ∀ j < s.npfd, 0 ≤ (s.pfd j).fd)
    (hrunning : s.exited = false) (hik : i ≤ k) (hk : k < s.npfd) (hturns : k < i + turns)
    (hhup : (s.pfd k).hup = true) (hfirst : ∀ j, i ≤ j → j ≤ k → (s.pfd j).hup = true → (s.pfd j).fd ≠ 0) :
    StaleEntry (hangupLoop turns i s) := by
  induction turns generalizing i with
  | zero => omega
  | succ turns ih =>
    rw [hangupLoop, if_pos ⟨by omega, hrunning⟩]
    by_cases hi : (s.pfd i).hup = true
    · rw [if_pos hi]
      exact (delmgmtconn_stale hfits hused (by omega) (hfirst i le_rfl hik hi)).hangupLoop _ _
    have hne : i ≠ k := by
      intro heq
      exact hi (heq ▸ hhup)
    rw [if_neg hi]
    exact ih (by omega) (by omega) (fun j hj => hfirst j (by omega))

lemma MgmtInv.closed (hs : MgmtInv s) {e : MgmtEvent} (he : e.Legal s) (hclosed : ¬NoneClosed s e) :
    StaleEntry (mgmtStep s e) := by
  have hused : ∀ j < s.npfd, 0 ≤ (s.pfd j).fd := fun j hj => (hs.used j hj).1
  cases e with
  | accept new => exact absurd trivial hclosed
  | del i =>
    have hlive : i < s.npfd := by
      by_contra h
      exact hclosed (.inl (Nat.not_lt.mp h))
    exact delmgmtconn_stale hs.fits hused hlive (fun h => hclosed (.inr h))
  | hangups hup =>
    simp only [NoneClosed, not_forall] at hclosed
    obtain ⟨k, hlow, hhigh, hhup, hnone⟩ := hclosed
    refine hangupLoop_stale hs.fits hused he.1 hlow hhigh (by omega) hhup ?_
    intro j hj hjk hjhup hfd
    exact hnone ⟨j, hj, hjk, hjhup, hfd⟩
  | debug i n => exact absurd trivial hclosed

end

/-- In a run the table is right after every step, and every step keeps the connections it does not close,
exactly if no connection is ever closed but by the exit of the filter. -/
theorem mgmt_table_iff {s : MgmtTable} (hs : MgmtStart s) (es : List MgmtEvent)
    (hes : mgmtMachine.Along mgmtMachine.enabled s es) : mgmtMachine.Always MgmtRight s es ∧
    mgmtMachine.Along KeepsConnections s es ↔ mgmtMachine.Along NoneClosed s es := by
  apply Machine.always_and_along_iff MgmtInv _ _ _ hs.inv es hes
  · exact fun s hs => hs.right
  · exact fun s e hs he hnone => hs.step he hnone
  · exact fun s e hs he hclosed h => (hs.closed he hclosed).not_right h.1

/-- Two inputs, the socket for management connections, and the console. -/
def consoleTable : MgmtTable where
  pfd := fun i => ⟨if i < 3 then i + 3 else if i = 3 then 0 else -1, false⟩
  debuglevel := fun _ => 0
  npfd := 4
  start := 3
  outside := false
  exited := false

lemma consoleTable_start : MgmtStart consoleTable := by
  refine ⟨by decide, by decide, by decide, by decide, ?_, fun _ => rfl, rfl, rfl⟩
  intro i hi
  have hge : 4 ≤ i := hi
  simp only [consoleTable]
  rw [if_neg (by omega), if_neg (by omega)]

theorem mgmt_table_accepted : mgmtMachine.Always MgmtRight consoleTable [.accept (some 6), .debug 4 1] ∧
    mgmtMachine.Along KeepsConnections consoleTable [.accept (some 6), .debug 4 1] :=
  (mgmt_table_iff consoleTable_start [.accept (some 6), .debug 4 1]
    ⟨⟨rfl, by
      intro fd hfd
      cases hfd
      exact ⟨by decide, by decide⟩⟩, ⟨rfl, by decide, by decide⟩, trivial⟩).mpr ⟨trivial, trivial, trivial⟩

/-- The connection is closed, and the transitions still go to its descriptor. -/
theorem closed_connection_printed :
    mgmtMachine.Along mgmtMachine.enabled consoleTable [.accept (some 6), .debug 4 1, .del 4] ∧
    printed (mgmtMachine.run consoleTable [.accept (some 6), .debug 4 1, .del 4]) = [6] ∧
    ¬mgmtMachine.Always MgmtRight consoleTable [.accept (some 6), .debug 4 1, .del 4] := by
  refine ⟨⟨⟨rfl, ?_⟩, ⟨rfl, by decide, by decide⟩, ⟨rfl, by decide⟩, trivial⟩, by decide, ?_⟩
  · intro fd hfd
    cases hfd
    exact ⟨by decide, by decide⟩
  intro h
  have hcleared := (h.last.tail 4 (by decide) (by decide)).1
  exact absurd hcleared (by decide)

end Vde
