import Vde.Proofs.VdehistTab

/-!
# The keys of libvdehist

What each key of the line editor keeps: the cursor lies in the line, the line fits in its buffer, the index lies in the
history, and every line in front of this index is there, so that a recall finds a line to copy. Only the insertion of a
byte can make the line too long.
-/

namespace Vde.Hist

open Function

structure HistInv (st : HistStat) : Prop where
  cursor : 0 ≤ st.bufindex ∧ st.bufindex ≤ st.linebuf.length
  line : st.linebuf.length < BUFSIZE
  histindex : 0 ≤ st.histindex ∧ st.histindex < HISTORYSIZE
  newer : ∀ k : Nat, (k : Int) < st.histindex → st.history k ≠ none
  lines : ∀ k l, k < HISTORYSIZE → st.history k = some l → l.length < BUFSIZE

variable {st st' : HistStat}

/-! ## Line and cursor -/

lemma HistInv.congr (h : HistInv st) (hline : st'.linebuf = st.linebuf) (hcursor : st'.bufindex = st.bufindex)
    (hhistory : st'.history = st.history) (hindex : st'.histindex = st.histindex) : HistInv st' := by
  refine ⟨?_, ?_, ?_, ?_, ?_⟩
  · rw [hcursor, hline]
    exact h.cursor
  · rw [hline]
    exact h.line
  · rw [hindex]
    exact h.histindex
  · rw [hindex, hhistory]
    exact h.newer
  · rw [hhistory]
    exact h.lines

variable {line : List UInt8}

lemma HistInv.edit (h : HistInv st) {cursor : Int} (hline : line.length < BUFSIZE)
    (hcursor : 0 ≤ cursor ∧ cursor ≤ line.length) : HistInv { st with linebuf := line, bufindex := cursor } :=
  ⟨hcursor, hline, h.histindex, h.newer, h.lines⟩

lemma HistInv.move (h : HistInv st) {cursor : Int} (hcursor : 0 ≤ cursor ∧ cursor ≤ st.linebuf.length) :
    HistInv { st with bufindex := cursor } :=
  h.edit h.line hcursor

lemma HistInv.end (h : HistInv st) : HistInv { st with bufindex := st.linebuf.length } :=
  h.move ⟨Int.natCast_nonneg _, Int.le_refl _⟩

lemma histInv_new (mgmtfd : Int) (commandlist : Option (List (List UInt8))) :
    HistInv (vdehistNew mgmtfd commandlist) where
  cursor := ⟨Int.le_refl 0, Int.le_refl 0⟩
  line := show 0 < 1024 by decide
  histindex := ⟨Int.le_refl 0, show (0 : Int) < 32 by decide⟩
  newer := by
    intro k hk
    have hneg : (k : Int) < 0 := hk
    omega
  lines := by
    intro k l _ hl
    cases hl

lemma length_insert (c : UInt8) (st : HistStat) : (insert c st).linebuf.length = st.linebuf.length + 1 := by
  change (st.linebuf.take st.bufindex.toNat ++ c :: st.linebuf.drop st.bufindex.toNat).length = _
  rw [List.length_append, List.length_cons, ← Nat.add_assoc, ← List.length_append, List.take_append_drop]

lemma HistInv.insert (h : HistInv st) (c : UInt8) (hroom : st.linebuf.length + 1 < BUFSIZE) :
    HistInv (Hist.insert c st) := by
  have hlen := length_insert c st
  have hcursor := h.cursor
  refine h.edit (Nat.lt_of_le_of_lt (Nat.le_of_eq hlen) hroom) ?_
  change 0 ≤ st.bufindex + 1 ∧ st.bufindex + 1 ≤ (Hist.insert c st).linebuf.length
  omega

lemma HistInv.backspace (h : HistInv st) : HistInv (Hist.backspace st).1 := by
  unfold Hist.backspace
  by_cases hpos : 0 < st.bufindex
  · rw [if_pos hpos]
    have hcursor := h.cursor
    have hline := h.line
    have hlen : (st.linebuf.eraseIdx (st.bufindex - 1).toNat).length = st.linebuf.length - 1 :=
      List.length_eraseIdx_of_lt (by omega)
    refine h.edit (by omega) ?_
    rw [hlen]
    omega
  rw [if_neg hpos]
  exact h

lemma HistInv.tab (h : HistInv st) (env : HistEnv) : HistInv (Hist.tab env st).1 := by
  unfold Hist.tab
  by_cases hagain : st.lastchar = 9
  · rw [if_pos hagain]
    exact h
  rw [if_neg hagain]
  obtain ⟨hshort, hinside⟩ := tabexpand_bounds st.commandlist h.line h.cursor
  exact h.edit hshort hinside

lemma HistInv.ctrl (h : HistInv st) (env : HistEnv) (c : UInt8) : HistInv (Hist.ctrl env c st).1 := by
  unfold Hist.ctrl
  by_cases h3 : c = 3
  · rw [if_pos h3]
    exact h.edit (by decide) ⟨Int.le_refl 0, Int.le_refl 0⟩
  rw [if_neg h3]
  by_cases h12 : c = 12
  · rw [if_pos h12]
    exact h
  rw [if_neg h12]
  by_cases h1 : c = 1
  · rw [if_pos h1]
    exact h.move ⟨Int.le_refl 0, Int.natCast_nonneg _⟩
  rw [if_neg h1]
  by_cases h5 : c = 5
  · rw [if_pos h5]
    exact h.end.tab env
  rw [if_neg h5]
  by_cases h9 : c = 9
  · rw [if_pos h9]
    exact h.tab env
  rw [if_neg h9]
  exact h

/-! ## History -/

lemma HistInv.putHistory (h : HistInv st) : HistInv (Hist.putHistory st) where
  cursor := h.cursor
  line := h.line
  histindex := h.histindex
  newer := by
    intro k hk
    change update st.history st.histindex.toNat (some st.linebuf) k ≠ none
    by_cases hsame : k = st.histindex.toNat
    · rw [hsame, update_self]
      exact Option.some_ne_none _
    rw [update_of_ne hsame]
    exact h.newer k hk
  lines := by
    intro k l hk hl
    change update st.history st.histindex.toNat (some st.linebuf) k = some l at hl
    by_cases hsame : k = st.histindex.toNat
    · rw [hsame, update_self] at hl
      cases hl
      exact h.line
    rw [update_of_ne hsame] at hl
    exact h.lines k l hk hl

lemma HistInv.shiftHistory (h : HistInv st) (hindex : st.histindex = 0) : HistInv (Hist.shiftHistory st) where
  cursor := h.cursor
  line := h.line
  histindex := h.histindex
  newer := by
    intro k hk
    have hneg : (k : Int) < st.histindex := hk
    omega
  lines := by
    intro k l hk hl
    change (if k = 0 then none else if k < HISTORYSIZE then st.history (k - 1) else st.history k) = some l at hl
    by_cases hzero : k = 0
    · rw [if_pos hzero] at hl
      cases hl
    rw [if_neg hzero, if_pos hk] at hl
    exact h.lines (k - 1) l (by omega) hl

/-- There is a line at the index, and at each one in front of it. -/
structure Recallable (st : HistStat) (i : Int) : Prop where
  inside : 0 ≤ i ∧ i < HISTORYSIZE
  newer : ∀ k : Nat, (k : Int) < i → st.history k ≠ none
  here : st.history i.toNat ≠ none

variable {i : Int}

lemma Recallable.of_le {j : Int} (h : Recallable st i) (h0 : 0 ≤ j) (hle : j ≤ i) : Recallable st j where
  inside := ⟨h0, Int.lt_of_le_of_lt hle h.inside.2⟩
  newer := fun k hk => h.newer k (Int.lt_of_lt_of_le hk hle)
  here := by
    rcases Int.lt_or_eq_of_le hle with hlt | rfl
    · exact h.newer j.toNat (by omega)
    · exact h.here

lemma Recallable.succ (h : Recallable st i) (hlt : i + 1 < HISTORYSIZE)
    (hhere : st.history (i + 1).toNat ≠ none) : Recallable st (i + 1) where
  inside := ⟨by have h0 := h.inside.1; omega, hlt⟩
  newer := by
    intro k hk
    exact (h.of_le (j := (k : Int)) (Int.natCast_nonneg k) (by omega)).here
  here := hhere

lemma Recallable.historyAt (h : Recallable st i) : historyAt st i = st.history i.toNat := if_pos h.inside

lemma Recallable.historyIndex_up (h : Recallable st st.histindex) : historyIndex 1 st =
    if st.histindex + 1 < HISTORYSIZE ∧
    st.history (st.histindex + 1).toNat ≠ none then st.histindex + 1 else st.histindex := by
  have hindex := h.inside
  have hsize : (HISTORYSIZE : Int) = 32 := rfl
  rw [hsize] at hindex
  have h0 : ¬st.histindex + 1 < 0 := by omega
  unfold Hist.historyIndex
  rw [hsize]
  simp only [if_neg h0]
  by_cases htop : 32 ≤ st.histindex + 1
  · have hlast : (32 : Int) - 1 = st.histindex := by omega
    have hnot : ¬(st.histindex + 1 < 32 ∧ st.history (st.histindex + 1).toNat ≠ none) := fun hlt => by omega
    rw [if_pos htop, hlast, h.historyAt, if_neg h.here, if_neg hnot]
  have hat : Hist.historyAt st (st.histindex + 1) = st.history (st.histindex + 1).toNat :=
    if_pos ⟨by omega, by rw [hsize]; omega⟩
  rw [if_neg htop, hat]
  by_cases hnone : st.history (st.histindex + 1).toNat = none
  · rw [if_pos hnone, if_neg fun hsome => hsome.2 hnone, Int.add_sub_cancel]
  · rw [if_neg hnone, if_pos ⟨by omega, hnone⟩]

lemma Recallable.historyIndex_down (h : Recallable st st.histindex) :
    historyIndex (-1) st = max 0 (st.histindex - 1) := by
  have hindex := h.inside
  have hsize : (HISTORYSIZE : Int) = 32 := rfl
  rw [hsize] at hindex
  unfold Hist.historyIndex
  rw [hsize]
  by_cases hzero : st.histindex + -1 < 0
  · have hfirst := h.of_le (Int.le_refl 0) hindex.1
    have hlow : ¬(32 : Int) ≤ 0 := by decide
    simp only [if_pos hzero, if_neg hlow, hfirst.historyAt, if_neg hfirst.here]
    omega
  have hless := h.of_le (j := st.histindex + -1) (by omega) (by omega)
  have hlow : ¬32 ≤ st.histindex + -1 := by omega
  simp only [if_neg hzero, if_neg hlow, hless.historyAt, if_neg hless.here]
  omega

variable {change : Int}

lemma Recallable.historyIndex (h : Recallable st st.histindex) (hchange : change = 1 ∨ change = -1) :
    Recallable st (historyIndex change st) := by
  rcases hchange with rfl | rfl
  · rw [h.historyIndex_up]
    by_cases hnext : st.histindex + 1 < HISTORYSIZE ∧ st.history (st.histindex + 1).toNat ≠ none
    · rw [if_pos hnext]
      exact h.succ hnext.1 hnext.2
    rw [if_neg hnext]
    exact h
  have hindex := h.inside
  rw [h.historyIndex_down]
  exact h.of_le (by omega) (by omega)

lemma HistInv.recallable (h : HistInv st) : Recallable (Hist.putHistory st) (Hist.putHistory st).histindex where
  inside := h.histindex
  newer := h.putHistory.newer
  here := by
    change update st.history st.histindex.toNat (some st.linebuf) st.histindex.toNat ≠ none
    rw [update_self]
    exact Option.some_ne_none _

lemma HistInv.getHistory (h : HistInv st) (hi : Recallable st i)
    (hline : st.history i.toNat = some line) :
    HistInv { st with histindex := i, linebuf := line, bufindex := line.length } where
  cursor := ⟨Int.natCast_nonneg _, Int.le_refl _⟩
  line := h.lines i.toNat line (by have hlt := hi.inside; omega) hline
  histindex := hi.inside
  newer := hi.newer
  lines := h.lines

lemma recallLine_found (env : HistEnv)
    (hline : historyAt (putHistory st) (historyIndex change (putHistory st)) = some line) :
    ∃ out, recallLine env change st =
      some ({ putHistory st with
        histindex := historyIndex change (putHistory st), linebuf := line, bufindex := line.length }, out) := by
  rw [Hist.recallLine, Hist.getHistory, hline]
  exact ⟨_, rfl⟩

section

variable (h : HistInv st) (env : HistEnv)

include h env

lemma HistInv.recallLine (hchange : change = 1 ∨ change = -1) :
    ∃ st' out, Hist.recallLine env change st = some (st', out) ∧ HistInv st' ∧ st'.status = st.status := by
  have hi := h.recallable.historyIndex hchange
  obtain ⟨line, hline⟩ := Option.ne_none_iff_exists'.mp hi.here
  obtain ⟨out, hout⟩ := recallLine_found env (hi.historyAt.trans hline)
  exact ⟨_, out, hout, h.putHistory.getHistory hi hline, rfl⟩

lemma HistInv.arrow (dir : UInt8) :
    ∃ st' out, Hist.arrow env dir st = some (st', out) ∧ HistInv st' ∧ st'.status = st.status := by
  have hcursor := h.cursor
  unfold Hist.arrow
  by_cases hup : dir = 65
  · rw [if_pos hup]
    exact h.recallLine env (.inl rfl)
  rw [if_neg hup]
  by_cases hdown : dir = 66
  · rw [if_pos hdown]
    exact h.recallLine env (.inr rfl)
  rw [if_neg hdown]
  by_cases hright : dir = 67
  · rw [if_pos hright]
    by_cases hless : st.bufindex < st.linebuf.length
    · rw [if_pos hless]
      exact ⟨_, _, rfl, h.move (by omega), rfl⟩
    rw [if_neg hless]
    exact ⟨_, _, rfl, h, rfl⟩
  rw [if_neg hright]
  by_cases hleft : dir = 68
  · rw [if_pos hleft]
    by_cases hpos : 0 < st.bufindex
    · rw [if_pos hpos]
      exact ⟨_, _, rfl, h.move (by omega), rfl⟩
    rw [if_neg hpos]
    exact ⟨_, _, rfl, h, rfl⟩
  rw [if_neg hleft]
  exact ⟨_, _, rfl, h, rfl⟩

/-! ## Lines -/

lemma HistInv.sendcmd (cmd : List UInt8) : HistInv (Hist.sendcmd env st cmd).st := by
  unfold Hist.sendcmd
  dsimp only
  by_cases hlogout : logoutText.isPrefixOf (skipBlanks cmd) = true
  · rw [if_pos hlogout]
    exact h
  rw [if_neg hlogout]
  by_cases hshutdown : shutdownText.isPrefixOf (skipBlanks cmd) = true
  · rw [if_pos hshutdown]
    exact h
  rw [if_neg hshutdown]
  exact h.congr rfl rfl rfl rfl

lemma HistInv.histSendcmd : HistInv (Hist.histSendcmd env st).st := by
  unfold Hist.histSendcmd
  by_cases hcommand : st.status = HIST_COMMAND
  · rw [if_pos hcommand]
    exact h.sendcmd env _
  rw [if_neg hcommand]
  dsimp only
  have hlogin : HistInv { st with status := (env.logincmd st).status, mgmtfd := (env.logincmd st).mgmtfd } :=
    h.congr rfl rfl rfl rfl
  have hlist : HistInv (if st.commandlist = none ∧ 0 ≤ (env.logincmd st).mgmtfd then
      { st with
        status := (env.logincmd st).status
        mgmtfd := (env.logincmd st).mgmtfd
        commandlist := env.createCommandlist (env.logincmd st).mgmtfd }
      else { st with status := (env.logincmd st).status, mgmtfd := (env.logincmd st).mgmtfd }) := by
    by_cases hmakes : st.commandlist = none ∧ 0 ≤ (env.logincmd st).mgmtfd
    · rw [if_pos hmakes]
      exact h.congr rfl rfl rfl rfl
    rw [if_neg hmakes]
    exact hlogin
  cases hcmd : (env.logincmd st).cmd with
  | none => exact hlist
  | some cmd => exact hlist.sendcmd env cmd

end

lemma HistInv.keepLine (h : HistInv st) : HistInv (Hist.keepLine st) := by
  have hzero : HistInv { st with histindex := 0 } :=
    ⟨h.cursor, h.line, ⟨Int.le_refl 0, show (0 : Int) < 32 by decide⟩,
      fun k hk => absurd (show (k : Int) < 0 from hk) (by omega), h.lines⟩
  unfold Hist.keepLine
  dsimp only
  by_cases hcommand : st.status = HIST_COMMAND
  · rw [if_pos hcommand]
    by_cases hsome : 0 < (Hist.putHistory { st with histindex := 0 }).linebuf.length
    · rw [if_pos hsome]
      exact hzero.putHistory.shiftHistory rfl
    rw [if_neg hsome]
    exact hzero.putHistory
  rw [if_neg hcommand]
  exact h

lemma HistInv.newline (h : HistInv st) (env : HistEnv) : HistInv (Hist.newline env st).st := by
  have hsent := h.keepLine.end.histSendcmd env
  unfold Hist.newline
  dsimp only
  generalize Hist.histSendcmd env { Hist.keepLine st with bufindex := (Hist.keepLine st).linebuf.length } = sent
    at hsent ⊢
  by_cases hrv : sent.rv ≠ 0
  · rw [if_pos hrv]
    exact hsent
  rw [if_neg hrv]
  refine ⟨⟨Int.le_refl 0, Int.le_refl 0⟩, show 0 < 1024 by decide,
    ⟨Int.le_refl 0, show (0 : Int) < 32 by decide⟩, ?_, hsent.lines⟩
  intro k hk
  have hneg : (k : Int) < 0 := hk
  omega

def KeyInserts (c : UInt8) : Prop := 32 ≤ c ∧ c ≠ 127

lemma termKey_inserts (env : HistEnv) {c : UInt8} (hc : KeyInserts c) (st : HistStat) :
    (termKey env c st).rv = 0 ∧ (termKey env c st).st = insert c st := by
  obtain ⟨hlow, hdel⟩ := hc
  have hctrl : ¬(c < 32 ∧ c ≠ 10 ∧ c ≠ 13) := fun h => absurd hlow (UInt8.not_le.mpr h.1)
  have h13 : c ≠ 13 := by
    rintro rfl
    exact absurd hlow (by decide)
  have h10 : c ≠ 10 := by
    rintro rfl
    exact absurd hlow (by decide)
  simp only [termKey, if_neg hctrl, if_neg hdel, if_neg h13, if_neg h10, and_self]

lemma HistInv.termKey (h : HistInv st) (env : HistEnv) (c : UInt8)
    (hroom : KeyInserts c → st.linebuf.length + 1 < BUFSIZE) : HistInv (Hist.termKey env c st).st := by
  by_cases hc : KeyInserts c
  · rw [(termKey_inserts env hc st).2]
    exact h.insert c (hroom hc)
  unfold Hist.termKey
  by_cases hctrl : c < 32 ∧ c ≠ 10 ∧ c ≠ 13
  · rw [if_pos hctrl]
    by_cases hend : c = 4
    · rw [if_pos hend]
      exact h
    rw [if_neg hend]
    exact h.ctrl env c
  rw [if_neg hctrl]
  by_cases hdel : c = 127
  · rw [if_pos hdel]
    exact h.backspace
  rw [if_neg hdel]
  dsimp only
  by_cases h13 : c = 13
  · rw [if_pos h13]
    exact h
  rw [if_neg h13]
  by_cases h10 : c = 10
  · rw [if_pos h10]
    exact h.newline env
  · exact absurd ⟨UInt8.not_lt.mp fun hlow => hctrl ⟨hlow, h10, h13⟩, hdel⟩ hc

end Vde.Hist
