import Vde.Lib.LineEditor
import Vde.Proofs.VdehistBounds

/-!
# The line editor of libvdehist against a plain one

In command mode each key does to the line and the cursor what it does in a plain line editor, except that ctrl-E runs on
into the completion, and that the turn of an arrow skips the byte behind its sequence as well.
-/

namespace Vde.Hist

open List Function

def endsSession (line : List UInt8) : Bool :=
  logoutText.isPrefixOf (skipBlanks line) || shutdownText.isPrefixOf (skipBlanks line)

def editKey (e : Editor UInt8) (key : LineKey UInt8) : Editor UInt8 := e.apply (HISTORYSIZE - 1) endsSession key

def keyBytes : LineKey UInt8 → List UInt8
  | .char c => [c]
  | .backspace => [127]
  | .left => [27, 91, 68]
  | .right => [27, 91, 67]
  | .up => [27, 91, 65]
  | .down => [27, 91, 66]
  | .home => [1]
  | .lineEnd => [5]
  | .cancel => [3]
  | .newline => [10]

def KeyLegal : LineKey UInt8 → Prop
  | .char c => KeyInserts c ∧ c ≠ 255
  | _ => True

structure Shows (st : HistStat) (e : Editor UInt8) : Prop where
  inv : HistInv st
  status : st.status = HIST_COMMAND
  text : st.linebuf = e.text
  cursor : st.bufindex = e.cursor
  place : st.histindex = e.place
  past : ∀ k, k + 1 < HISTORYSIZE → st.history (k + 1) = e.past[k]?
  draft : 0 < e.place → st.history 0 = some e.draft
  within : e.place ≤ e.past.length
  size : e.past.length < HISTORYSIZE
  still : e.closed = false

def Follows (rv : Int) (st : HistStat) (e : Editor UInt8) : Prop :=
  rv = 0 ∧ Shows st e ∨ rv ≠ 0 ∧ e.closed = true ∧ st.linebuf = e.text ∧ st.bufindex = e.cursor

variable {st st' : HistStat} {e : Editor UInt8}

lemma shows_new {mgmtfd : Int} (h : 0 ≤ mgmtfd) (commandlist : Option (List (List UInt8))) :
    Shows (vdehistNew mgmtfd commandlist) Editor.start where
  inv := histInv_new mgmtfd commandlist
  status := if_neg (Int.not_lt.mpr h)
  text := rfl
  cursor := rfl
  place := rfl
  past := fun _ _ => rfl
  draft := fun hpos => absurd hpos (Nat.lt_irrefl 0)
  within := Nat.le_refl 0
  size := by decide
  still := rfl

/-! ## Line and cursor -/

lemma Shows.congr (h : Shows st e) (hstatus : st'.status = st.status) (hline : st'.linebuf = st.linebuf)
    (hcursor : st'.bufindex = st.bufindex) (hhistory : st'.history = st.history)
    (hindex : st'.histindex = st.histindex) : Shows st' e where
  inv := h.inv.congr hline hcursor hhistory hindex
  status := hstatus.trans h.status
  text := hline.trans h.text
  cursor := hcursor.trans h.cursor
  place := hindex.trans h.place
  past := by
    rw [hhistory]
    exact h.past
  draft := by
    rw [hhistory]
    exact h.draft
  within := h.within
  size := h.size
  still := h.still

lemma Shows.edit (h : Shows st e) (line : List UInt8) (cursor : Nat)
    (hinv : HistInv { st with linebuf := line, bufindex := cursor }) :
    Shows { st with linebuf := line, bufindex := cursor } { e with text := line, cursor := cursor } :=
  ⟨hinv, h.status, rfl, rfl, h.place, h.past, h.draft, h.within, h.size, h.still⟩

lemma Shows.notClosed (h : Shows st e) : ¬e.closed = true := by
  rw [h.still]
  exact Bool.false_ne_true

lemma Shows.cursor_le (h : Shows st e) : e.cursor ≤ e.text.length := by
  have hcursor := h.inv.cursor.2
  rw [h.cursor, h.text] at hcursor
  omega

lemma Shows.insert (h : Shows st e) (c : UInt8) (hroom : st.linebuf.length + 1 < BUFSIZE) :
    Shows (Hist.insert c st) (editKey e (.char c)) := by
  have hkey : editKey e (.char c) =
      { e with text := e.text.take e.cursor ++ c :: e.text.drop e.cursor, cursor := e.cursor + 1 } :=
    if_neg h.notClosed
  have hinsert : Hist.insert c st =
      { st with
        linebuf := e.text.take e.cursor ++ c :: e.text.drop e.cursor
        bufindex := ((e.cursor + 1 : Nat) : Int) } := by
    have hcursor : st.bufindex.toNat = e.cursor := by rw [h.cursor, Int.toNat_natCast]
    have hnext : st.bufindex + 1 = ((e.cursor + 1 : Nat) : Int) := by rw [h.cursor, Int.natCast_succ]
    rw [Hist.insert, hcursor, h.text, hnext]
  have hinv := h.inv.insert c hroom
  rw [hinsert] at hinv
  rw [hkey, hinsert]
  exact h.edit _ _ hinv

section

variable (h : Shows st e)

include h

lemma Shows.move (cursor : Nat) (hle : cursor ≤ e.text.length) :
    Shows { st with bufindex := cursor } { e with cursor := cursor } := by
  have hinv : HistInv { st with bufindex := (cursor : Int) } := by
    refine h.inv.move ?_
    rw [h.text]
    omega
  exact ⟨hinv, h.status, h.text, rfl, h.place, h.past, h.draft, h.within, h.size, h.still⟩

lemma Shows.backspace : Shows (Hist.backspace st).1 (editKey e .backspace) := by
  have hkey : editKey e .backspace =
      if 0 < e.cursor then { e with text := e.text.eraseIdx (e.cursor - 1), cursor := e.cursor - 1 } else e :=
    if_neg h.notClosed
  have hcursor := h.cursor
  rw [hkey]
  by_cases hpos : 0 < e.cursor
  · have hbufindex : 0 < st.bufindex := by omega
    have hless : st.bufindex - 1 = ((e.cursor - 1 : Nat) : Int) := by omega
    have hback : (Hist.backspace st).1 =
        { st with linebuf := e.text.eraseIdx (e.cursor - 1), bufindex := ((e.cursor - 1 : Nat) : Int) } := by
      rw [Hist.backspace, if_pos hbufindex, hless, h.text, Int.toNat_natCast]
    have hinv := h.inv.backspace
    rw [hback] at hinv
    rw [if_pos hpos, hback]
    exact h.edit _ _ hinv
  have hbufindex : ¬0 < st.bufindex := by omega
  rw [if_neg hpos, Hist.backspace, if_neg hbufindex]
  exact h

lemma Shows.left (env : HistEnv) : ∃ st' out, arrow env 68 st = some (st', out) ∧ Shows st' (editKey e .left) := by
  have hkey : editKey e .left = { e with cursor := e.cursor - 1 } := if_neg h.notClosed
  have hcursor := h.cursor
  have hle := h.cursor_le
  have hshows := h.move (e.cursor - 1) (by omega)
  have harrow : arrow env 68 st =
      if 0 < st.bufindex then some ({ st with bufindex := st.bufindex - 1 }, [.term [27, 91, 68]])
      else some (st, []) := rfl
  rw [harrow, hkey]
  by_cases hpos : 0 < st.bufindex
  · have hless : st.bufindex - 1 = ((e.cursor - 1 : Nat) : Int) := by omega
    rw [if_pos hpos, hless]
    exact ⟨_, _, rfl, hshows⟩
  have hsame : ((e.cursor - 1 : Nat) : Int) = st.bufindex := by omega
  rw [if_neg hpos]
  exact ⟨st, [], rfl, hshows.congr rfl rfl hsame.symm rfl rfl⟩

lemma Shows.right (env : HistEnv) :
    ∃ st' out, arrow env 67 st = some (st', out) ∧ Shows st' (editKey e .right) := by
  have hkey : editKey e .right = if e.cursor < e.text.length then { e with cursor := e.cursor + 1 } else e :=
    if_neg h.notClosed
  have harrow : arrow env 67 st =
      if st.bufindex < st.linebuf.length then some ({ st with bufindex := st.bufindex + 1 }, [.term [27, 91, 67]])
      else some (st, []) := rfl
  have hcursor := h.cursor
  have hlen : st.linebuf.length = e.text.length := congrArg length h.text
  rw [harrow, hkey]
  by_cases hless : e.cursor < e.text.length
  · have hmore : st.bufindex < st.linebuf.length := by omega
    have hnext : st.bufindex + 1 = ((e.cursor + 1 : Nat) : Int) := by omega
    rw [if_pos hless, if_pos hmore, hnext]
    exact ⟨_, _, rfl, h.move _ hless⟩
  have hend : ¬st.bufindex < st.linebuf.length := by omega
  rw [if_neg hless, if_neg hend]
  exact ⟨st, [], rfl, h⟩

lemma Shows.home (env : HistEnv) : Shows (ctrl env 1 st).1 (editKey e .home) := by
  have hkey : editKey e .home = { e with cursor := 0 } := if_neg h.notClosed
  rw [hkey]
  exact h.move 0 (Nat.zero_le _)

lemma Shows.cancel (env : HistEnv) : Shows (ctrl env 3 st).1 (editKey e .cancel) := by
  have hkey : editKey e .cancel = { e with text := [], cursor := 0 } := if_neg h.notClosed
  rw [hkey]
  exact h.edit [] 0 (h.inv.ctrl env 3)

end

/-- The tab code behind ctrl-E does nothing: the byte before was a tab, or the completion of the whole line leaves it as
it is. -/
def EndQuiet (st : HistStat) : Prop :=
  st.lastchar = 9 ∨
    tabexpand st.commandlist st.linebuf st.linebuf.length BUFSIZE = (st.linebuf, (st.linebuf.length : Int))

lemma Shows.lineEnd (h : Shows st e) (env : HistEnv) (hquiet : EndQuiet st) :
    Shows (ctrl env 5 st).1 (editKey e .lineEnd) := by
  have hkey : editKey e .lineEnd = { e with cursor := e.text.length } := if_neg h.notClosed
  have hshows := h.move _ (Nat.le_refl e.text.length)
  have hend : (ctrl env 5 st).1 = (tab env { st with bufindex := st.linebuf.length }).1 := rfl
  have hline : st.linebuf.length = e.text.length := congrArg length h.text
  rw [hkey, hend, tab]
  by_cases hagain : st.lastchar = 9
  · rw [if_pos hagain, hline]
    exact hshows
  rw [if_neg hagain]
  dsimp only
  rw [hquiet.resolve_left hagain]
  exact hshows.congr rfl rfl (congrArg Nat.cast hline) rfl rfl

/-! ## History -/

lemma Shows.saved (h : Shows st e) : (putHistory st).history 0 = some e.save.draft ∧ ∀ k, k + 1 < HISTORYSIZE →
    (putHistory st).history (k + 1) = e.save.past[k]? := by
  have hindex : st.histindex.toNat = e.place := by rw [h.place, Int.toNat_natCast]
  have hput : (putHistory st).history = update st.history e.place (some e.text) := by
    rw [putHistory, hindex, h.text]
  have hwithin := h.within
  rw [hput]
  unfold Editor.save
  by_cases hzero : e.place = 0
  · rw [if_pos hzero, hzero]
    refine ⟨update_self _ _ _, fun k hk => ?_⟩
    rw [update_of_ne (Nat.succ_ne_zero k)]
    exact h.past k hk
  rw [if_neg hzero]
  refine ⟨?_, fun k hk => ?_⟩
  · rw [update_of_ne (Ne.symm hzero)]
    exact h.draft (Nat.pos_of_ne_zero hzero)
  by_cases hhere : k + 1 = e.place
  · have hk' : e.place - 1 = k := by omega
    rw [hhere, update_self, hk']
    exact (getElem?_set_self (by omega)).symm
  rw [update_of_ne hhere, getElem?_set_ne (by omega)]
  exact h.past k hk

lemma Shows.lineAt (h : Shows st e) (place : Nat) (hplace : place ≤ e.past.length) :
    (putHistory st).history place = some (e.save.lineAt place) := by
  have hsize := h.size
  obtain ⟨hdraft, hpast⟩ := h.saved
  cases place with
  | zero => exact hdraft
  | succ k =>
    have hk : k < e.save.past.length := by
      rw [Editor.save_length]
      omega
    have hline : e.save.lineAt (k + 1) = e.save.past[k] := by
      rw [Editor.lineAt, if_neg (Nat.succ_ne_zero k), Nat.add_sub_cancel, getD_eq_getElem?_getD,
        getElem?_eq_getElem hk]
      rfl
    rw [hpast k (by omega), hline]
    exact getElem?_eq_getElem hk

lemma Shows.recallLine (h : Shows st e) (env : HistEnv) {change : Int} {place : Nat} (hplace : place ≤ e.past.length)
    (hindex : historyIndex change (putHistory st) = place) :
    ∃ st' out, Hist.recallLine env change st = some (st', out) ∧ Shows st' (e.save.showAt place) := by
  have hsize := h.size
  have hrecallable : Recallable (putHistory st) (place : Int) :=
    { inside := by
        have hmax : (HISTORYSIZE : Int) = 32 := rfl
        have hmax' : HISTORYSIZE = 32 := rfl
        omega
      newer := by
        intro k hk
        rw [h.lineAt k (by omega)]
        exact Option.some_ne_none _
      here := by
        rw [Int.toNat_natCast, h.lineAt place hplace]
        exact Option.some_ne_none _ }
  have hline : (putHistory st).history (place : Int).toNat = some (e.save.lineAt place) := by
    rw [Int.toNat_natCast]
    exact h.lineAt place hplace
  have hat : historyAt (putHistory st) (historyIndex change (putHistory st)) = some (e.save.lineAt place) := by
    rw [hindex, hrecallable.historyAt]
    exact hline
  obtain ⟨out, hout⟩ := recallLine_found env hat
  rw [hindex] at hout
  obtain ⟨hdraft, hpast⟩ := h.saved
  refine ⟨_, out, hout, ?_⟩
  exact
    { inv := h.inv.putHistory.getHistory hrecallable hline
      status := h.status
      text := rfl
      cursor := rfl
      place := rfl
      past := hpast
      draft := fun _ => hdraft
      within := by
        change place ≤ e.save.past.length
        rw [Editor.save_length]
        exact hplace
      size := by
        change e.save.past.length < HISTORYSIZE
        rw [Editor.save_length]
        exact hsize
      still := (Editor.save_closed e).trans h.still }

lemma Shows.up (h : Shows st e) (env : HistEnv) :
    ∃ st' out, arrow env 65 st = some (st', out) ∧ Shows st' (editKey e .up) := by
  have hkey : editKey e .up = e.save.showAt e.older := if_neg h.notClosed
  have hwithin := h.within
  have hsize := h.size
  have hmax : HISTORYSIZE = 32 := rfl
  have hput : (putHistory st).histindex = e.place := h.place
  have hindex := h.inv.recallable.historyIndex_up
  rw [hput] at hindex
  have hnext : ((e.place : Int) + 1).toNat = e.place + 1 := by omega
  rw [hkey]
  by_cases holder : e.place < e.past.length
  · have hline := h.lineAt _ holder
    have hmore : (e.place : Int) + 1 < HISTORYSIZE ∧ (putHistory st).history ((e.place : Int) + 1).toNat ≠ none := by
      rw [hnext, hline]
      exact ⟨by omega, Option.some_ne_none _⟩
    rw [Editor.older, if_pos holder]
    rw [if_pos hmore, ← Int.natCast_succ] at hindex
    exact h.recallLine env holder hindex
  have hoff :
      ¬((e.place : Int) + 1 < HISTORYSIZE ∧ (putHistory st).history ((e.place : Int) + 1).toNat ≠ none) := by
    rintro ⟨hlt, hsome⟩
    rw [hnext, h.saved.2 e.place (by omega)] at hsome
    refine hsome (getElem?_eq_none ?_)
    rw [Editor.save_length]
    omega
  rw [Editor.older, if_neg holder]
  rw [if_neg hoff] at hindex
  exact h.recallLine env hwithin hindex

lemma Shows.down (h : Shows st e) (env : HistEnv) :
    ∃ st' out, arrow env 66 st = some (st', out) ∧ Shows st' (editKey e .down) := by
  have hkey : editKey e .down = e.save.showAt (e.place - 1) := if_neg h.notClosed
  have hwithin := h.within
  have hput : (putHistory st).histindex = e.place := h.place
  have hindex := h.inv.recallable.historyIndex_down
  rw [hput] at hindex
  rw [hkey]
  refine h.recallLine env (by omega) (hindex.trans ?_)
  omega

/-! ## Newline -/

lemma endsSession_iff (line : List UInt8) : endsSession line = true ↔ logoutText.isPrefixOf (skipBlanks line) =
    true ∨ shutdownText.isPrefixOf (skipBlanks line) = true := by
  rw [endsSession, Bool.or_eq_true]

lemma sendcmd_spec (env : HistEnv) (st : HistStat) (cmd : List UInt8) :
    ((sendcmd env st cmd).rv ≠ 0 ↔ endsSession cmd = true) ∧ (sendcmd env st cmd).st.linebuf = st.linebuf ∧
    (sendcmd env st cmd).st.bufindex = st.bufindex ∧ (sendcmd env st cmd).st.history = st.history ∧
    (sendcmd env st cmd).st.status = st.status := by
  rw [endsSession_iff, sendcmd]
  by_cases hlogout : logoutText.isPrefixOf (skipBlanks cmd) = true
  · rw [if_pos hlogout]
    exact ⟨⟨fun _ => .inl hlogout, fun _ => show (1 : Int) ≠ 0 by decide⟩, rfl, rfl, rfl, rfl⟩
  rw [if_neg hlogout]
  by_cases hshutdown : shutdownText.isPrefixOf (skipBlanks cmd) = true
  · rw [if_pos hshutdown]
    exact ⟨⟨fun _ => .inr hshutdown, fun _ => show (2 : Int) ≠ 0 by decide⟩, rfl, rfl, rfl, rfl⟩
  rw [if_neg hshutdown]
  exact ⟨⟨fun hno => absurd rfl hno, fun hor => absurd hor (not_or_intro hlogout hshutdown)⟩, rfl, rfl, rfl, rfl⟩

lemma Shows.keepLine (h : Shows st e) : (keepLine st).linebuf = st.linebuf ∧ (keepLine st).status = HIST_COMMAND ∧
    ∀ k, k + 1 < HISTORYSIZE → (keepLine st).history (k + 1) =
    (if e.text.isEmpty then e.past else (e.text :: e.past).take (HISTORYSIZE - 1))[k]? := by
  rw [Hist.keepLine, if_pos h.status]
  dsimp only
  have hput : (putHistory { st with histindex := 0 }).history = update st.history 0 (some e.text) := by
    rw [putHistory, h.text]
    rfl
  have hline : (putHistory { st with histindex := 0 }).linebuf = e.text := h.text
  by_cases hsome : 0 < (putHistory { st with histindex := 0 }).linebuf.length
  · rw [if_pos hsome]
    refine ⟨rfl, h.status, fun k hk => ?_⟩
    have hcons : e.text.isEmpty = false := by
      rw [hline] at hsome
      exact isEmpty_eq_false_iff.mpr (ne_nil_of_length_pos hsome)
    have hshift : (shiftHistory (putHistory { st with histindex := 0 })).history (k + 1) =
        update st.history 0 (some e.text) k := by
      rw [shiftHistory, hput]
      dsimp only
      rw [if_neg (Nat.succ_ne_zero k), if_pos hk, Nat.add_sub_cancel]
    rw [hshift, hcons, if_neg Bool.false_ne_true, getElem?_take_of_lt (by omega)]
    cases k with
    | zero => exact update_self _ _ _
    | succ k =>
      rw [update_of_ne (Nat.succ_ne_zero k), getElem?_cons_succ]
      exact h.past k (by omega)
  rw [if_neg hsome]
  refine ⟨rfl, h.status, fun k hk => ?_⟩
  have hnil : e.text.isEmpty = true := by
    rw [hline] at hsome
    exact List.isEmpty_iff.mpr (eq_nil_of_length_eq_zero (by omega))
  rw [hput, hnil, if_pos rfl, update_of_ne (Nat.succ_ne_zero k)]
  exact h.past k hk

lemma Shows.newline (h : Shows st e) (env : HistEnv) :
    Follows (Hist.newline env st).rv (Hist.newline env st).st (editKey e .newline) := by
  have hkey : editKey e .newline = e.enter (HISTORYSIZE - 1) endsSession := if_neg h.notClosed
  obtain ⟨hline, hstatus, hpast⟩ := h.keepLine
  have hinv := h.inv.newline env
  rw [hkey, Editor.enter]
  unfold Hist.newline at hinv ⊢
  dsimp only at hinv ⊢
  have hsend : histSendcmd env { Hist.keepLine st with bufindex := (Hist.keepLine st).linebuf.length } =
      sendcmd env { Hist.keepLine st with bufindex := (Hist.keepLine st).linebuf.length } (Hist.keepLine st).linebuf :=
    if_pos hstatus
  rw [hsend] at hinv ⊢
  have hspec := sendcmd_spec env { Hist.keepLine st with bufindex := (Hist.keepLine st).linebuf.length }
    (Hist.keepLine st).linebuf
  generalize sendcmd env { Hist.keepLine st with bufindex := (Hist.keepLine st).linebuf.length }
    (Hist.keepLine st).linebuf = sent at hspec hinv ⊢
  obtain ⟨hrv, hsentLine, hsentCursor, hsentHistory, hsentStatus⟩ := hspec
  rw [hline, h.text] at hrv
  dsimp only at hsentLine hsentCursor hsentHistory hsentStatus
  by_cases hends : endsSession e.text = true
  · have hne := hrv.mpr hends
    rw [if_pos hne, if_pos hends]
    refine .inr ⟨hne, rfl, ?_, ?_⟩
    · rw [hsentLine, hline, h.text]
    · rw [hsentCursor, hline, h.text]
  have hzero : ¬sent.rv ≠ 0 := fun hne => hends (hrv.mp hne)
  rw [if_neg hzero] at hinv ⊢
  rw [if_neg hends]
  have hsize := h.size
  refine .inl ⟨Classical.not_not.mp hzero, ?_⟩
  exact
    { inv := hinv
      status := hsentStatus.trans hstatus
      text := rfl
      cursor := rfl
      place := rfl
      past := by
        intro k hk
        change sent.st.history (k + 1) = _
        rw [hsentHistory]
        exact hpast k hk
      draft := fun hpos => absurd hpos (Nat.lt_irrefl 0)
      within := Nat.zero_le _
      size := by
        dsimp only
        by_cases hempty : e.text.isEmpty = true
        · rw [if_pos hempty]
          exact hsize
        rw [if_neg hempty]
        exact Nat.lt_of_le_of_lt (length_take_le _ _) (by decide)
      still := h.still }

/-! ## Turns -/

variable {key : LineKey UInt8} {c : UInt8}

lemma Shows.termKey (h : Shows st e) (env : HistEnv) (hbytes : keyBytes key = [c])
    (hlegal : KeyLegal key) (hroom : e.text.length + 1 < BUFSIZE) (hquiet : c = 5 → EndQuiet st) :
    Follows (Hist.termKey env c st).rv (Hist.termKey env c st).st (editKey e key) := by
  have hline : st.linebuf.length + 1 < BUFSIZE := by
    rw [h.text]
    exact hroom
  cases key with
  | char c' =>
    cases hbytes
    obtain ⟨hrv, hst⟩ := termKey_inserts env hlegal.1 st
    rw [hrv, hst]
    exact .inl ⟨rfl, h.insert c hline⟩
  | backspace =>
    cases hbytes
    exact .inl ⟨rfl, h.backspace⟩
  | left => cases hbytes
  | right => cases hbytes
  | up => cases hbytes
  | down => cases hbytes
  | home =>
    cases hbytes
    exact .inl ⟨rfl, h.home env⟩
  | lineEnd =>
    cases hbytes
    exact .inl ⟨rfl, h.lineEnd env (hquiet rfl)⟩
  | cancel =>
    cases hbytes
    exact .inl ⟨rfl, h.cancel env⟩
  | newline =>
    cases hbytes
    exact h.newline env

lemma Shows.arrow (h : Shows st e) (env : HistEnv) {dir : UInt8} (hbytes : keyBytes key = [27, 91, dir]) :
    ∃ st' out, Hist.arrow env dir st = some (st', out) ∧ Shows st' (editKey e key) := by
  cases key with
  | char c => cases hbytes
  | backspace => cases hbytes
  | left =>
    cases hbytes
    exact h.left env
  | right =>
    cases hbytes
    exact h.right env
  | up =>
    cases hbytes
    exact h.up env
  | down =>
    cases hbytes
    exact h.down env
  | home => cases hbytes
  | lineEnd => cases hbytes
  | cancel => cases hbytes
  | newline => cases hbytes

lemma keyBytes_cases (hlegal : KeyLegal key) :
    (∃ c, keyBytes key = [c] ∧ c ≠ 0 ∧ c ≠ 27 ∧ c ≠ 255) ∨ ∃ dir, keyBytes key = [27, 91, dir] := by
  cases key with
  | char c =>
    refine .inl ⟨c, rfl, ?_, ?_, hlegal.2⟩
    · rintro rfl
      exact absurd hlegal.1.1 (by decide)
    rintro rfl
    exact absurd hlegal.1.1 (by decide)
  | backspace => exact .inl ⟨127, rfl, by decide, by decide, by decide⟩
  | left => exact .inr ⟨68, rfl⟩
  | right => exact .inr ⟨67, rfl⟩
  | up => exact .inr ⟨65, rfl⟩
  | down => exact .inr ⟨66, rfl⟩
  | home => exact .inl ⟨1, rfl, by decide, by decide, by decide⟩
  | lineEnd => exact .inl ⟨5, rfl, by decide, by decide, by decide⟩
  | cancel => exact .inl ⟨3, rfl, by decide, by decide, by decide⟩
  | newline => exact .inl ⟨10, rfl, by decide, by decide, by decide⟩

variable {env : HistEnv} {buf : Input} {i : Nat}

lemma byte_of_drop {rest : List UInt8} (h : buf.read.drop i = c :: rest) :
    buf.byte i = c ∧ buf.read.drop (i + 1) = rest := by
  have hget : buf.read[i]? = some c := by
    have hzero : (buf.read.drop i)[0]? = buf.read[i]? := by rw [getElem?_drop, Nat.add_zero]
    rw [← hzero, h]
    rfl
  refine ⟨?_, ?_⟩
  · rw [Input.byte, getD_eq_getElem?_getD, hget]
    rfl
  rw [← drop_drop, h]
  rfl

lemma turnAt_plain (env : HistEnv) (buf : Input) (i : Nat) (hff : c ≠ 255) (hesc : c ≠ 27) (st : HistStat) :
    turnAt env buf i c st =
      if (termKey env c st).rv ≠ 0 then
        ⟨i + 1, (termKey env c st).rv, (termKey env c st).st, (termKey env c st).out, i, false⟩
      else ⟨i + 1, 0, { (termKey env c st).st with lastchar := c }, (termKey env c st).out, i, false⟩ := by
  rw [turnAt, if_neg fun h => hff h.1, if_neg hesc]
  dsimp only
  rw [if_neg hff]

def encode (keys : List (LineKey UInt8)) : List UInt8 := keys.flatMap keyBytes

lemma Shows.turn (h : Shows st e) (env : HistEnv) {key : LineKey UInt8} {keys : List (LineKey UInt8)}
    (hrest : buf.read.drop i = keyBytes key ++ encode keys) (hlegal : KeyLegal key)
    (hroom : e.text.length + 1 < BUFSIZE) (hlast : buf.byte i = 27 → buf.read.length ≤ i + 3)
    (hquiet : buf.byte i = 5 → EndQuiet st) : (termTurn env buf i st).fault = false ∧
    Follows (termTurn env buf i st).rv (termTurn env buf i st).st (editKey e key) ∧
    buf.read.drop (termTurn env buf i st).next = encode keys := by
  rcases keyBytes_cases hlegal with ⟨c, hbytes, hzero, hesc, hff⟩ | ⟨dir, hbytes⟩
  · rw [hbytes] at hrest
    obtain ⟨hbyte, hdrop⟩ := byte_of_drop hrest
    have hkey := h.termKey env hbytes hlegal hroom fun hc => hquiet (hbyte.trans hc)
    have hturn : termTurn env buf i st = turnAt env buf i c st := by
      rw [termTurn_single fun hboth => hff (hbyte.symm.trans hboth.1), hbyte, if_neg hzero]
    rw [hturn, turnAt_plain env buf i hff hesc]
    rcases hkey with ⟨hrv, hshows⟩ | ⟨hrv, hclosed⟩
    · rw [if_neg fun hne => hne hrv]
      exact ⟨rfl, .inl ⟨rfl, hshows.congr rfl rfl rfl rfl rfl⟩, hdrop⟩
    rw [if_pos hrv]
    exact ⟨rfl, .inr ⟨hrv, hclosed⟩, hdrop⟩
  rw [hbytes] at hrest
  obtain ⟨hbyte, hdrop⟩ := byte_of_drop hrest
  obtain ⟨hbyte1, hdrop1⟩ := byte_of_drop hdrop
  obtain ⟨hbyte2, hdrop2⟩ := byte_of_drop hdrop1
  have hbyte2 : buf.byte (i + 2) = dir := hbyte2
  have hnone : encode keys = [] := hdrop2.symm.trans (drop_eq_nil_of_le (hlast hbyte))
  have hedited : Shows { st with edited := true } e := h.congr rfl rfl rfl rfl rfl
  obtain ⟨st', out, harrow, hshows⟩ := hedited.arrow env hbytes
  have hturn : termTurn env buf i st =
      ⟨i + 4, 0, { st' with lastchar := buf.byte (i + 3) }, out, i + 3, false⟩ := by
    rw [termTurn_single fun hboth => absurd (hbyte.symm.trans hboth.1) (by decide), hbyte,
      if_neg (by decide : ¬(27 : UInt8) = 0), turnAt, if_neg fun hboth => absurd hboth.1 (by decide), if_pos rfl,
      if_pos ⟨hbyte1, h.status⟩, hbyte2, harrow]
  rw [hturn, hnone]
  refine ⟨rfl, .inl ⟨rfl, hshows.congr rfl rfl rfl rfl rfl⟩, ?_⟩
  exact drop_eq_nil_of_le (Nat.le_succ_of_le (hlast hbyte))

/-! ## Runs -/

/-- A terminal beside a plain line editor that takes the same keys. -/
structure EditRun where
  session : Session
  editor : Editor UInt8

inductive EditEvent where
  | read (keys : List (LineKey UInt8)) (rest : Nat → UInt8)
  | turn (env : HistEnv)
  | commands (commandlist : Option (List (List UInt8)))

def EditEvent.term : EditEvent → TermEvent
  | .read keys rest => .read ⟨encode keys, rest⟩
  | .turn env => .turn env
  | .commands commandlist => .commands commandlist

def EditEvent.keys : EditEvent → List (LineKey UInt8)
  | .read keys _ => keys
  | _ => []

def editorMachine : Machine (Editor UInt8) (LineKey UInt8) where
  enabled e key := KeyLegal key ∧ e.text.length + 1 < BUFSIZE
  step := editKey

def editMachine : Machine EditRun EditEvent where
  enabled r ev := termMachine.enabled r.session ev.term ∧ editorMachine.Along editorMachine.enabled r.editor ev.keys
  step r ev := { session := sessionStep r.session ev.term, editor := editorMachine.run r.editor ev.keys }

def Session.Over (s : Session) : Prop := ¬s.Looping ∨ s.rv ≠ 0

def EditRight (r : EditRun) : Prop :=
  r.session.Over → r.session.st.linebuf = r.editor.text ∧ r.session.st.bufindex = r.editor.cursor

/-- An arrow is the last key of its read, and ctrl-E finds nothing to complete. -/
def TurnExact (r : EditRun) : EditEvent → Prop
  | .turn _ =>
    (r.session.buf.byte r.session.i = 27 → r.session.buf.read.length ≤ r.session.i + 3) ∧
      (r.session.buf.byte r.session.i = 5 → EndQuiet r.session.st)
  | _ => True

inductive EditInv (r : EditRun) : Prop
  | still (hrv : r.session.rv = 0) (hfault : r.session.fault = false) {e : Editor UInt8} {keys : List (LineKey UInt8)}
    (hshows : Shows r.session.st e) (hrest : r.session.buf.read.drop r.session.i = encode keys)
    (hlegal : editorMachine.Along editorMachine.enabled e keys) (heditor : r.editor = editorMachine.run e keys)
  | closed (hrv : r.session.rv ≠ 0) (hline : r.session.st.linebuf = r.editor.text)
    (hcursor : r.session.st.bufindex = r.editor.cursor)

lemma keyBytes_ne (key : LineKey UInt8) : keyBytes key ≠ [] := by
  cases key <;> exact cons_ne_nil _ _

lemma encode_eq_nil {keys : List (LineKey UInt8)} (h : encode keys = []) : keys = [] := by
  cases keys with
  | nil => rfl
  | cons key keys => exact absurd (append_eq_nil_iff.mp h).1 (keyBytes_ne key)

lemma keys_taken {s : Session} {keys : List (LineKey UInt8)} (hshows : Shows s.st e)
    (hrest : s.buf.read.drop s.i = encode keys) (hover : ¬s.Looping) : keys = [] := by
  have hline := hshows.inv.line
  have hi : s.buf.read.length ≤ s.i := Nat.le_of_not_lt fun hlt => hover ⟨hlt, hline⟩
  exact encode_eq_nil (hrest.symm.trans (drop_eq_nil_of_le hi))

lemma EditInv.right {r : EditRun} (h : EditInv r) : EditRight r := by
  intro hover
  cases h with
  | still hrv _ hshows hrest _ heditor =>
    have hnil := keys_taken hshows hrest (hover.resolve_right fun hne => hne hrv)
    rw [heditor, hnil]
    exact ⟨hshows.text, hshows.cursor⟩
  | closed _ hline hcursor => exact ⟨hline, hcursor⟩

lemma editorMachine_closed {e : Editor UInt8} (h : e.closed = true) (keys : List (LineKey UInt8)) :
    editorMachine.run e keys = e := Editor.applyAll_closed h keys

lemma EditInv.turn {r : EditRun} (h : EditInv r) (env : HistEnv) (he : editMachine.enabled r (.turn env))
    (hexact : TurnExact r (.turn env)) : EditInv (editMachine.step r (.turn env)) := by
  have hloop : r.session.Looping := he.1.2.2
  cases h with
  | closed hrv _ _ => exact absurd he.1.1 hrv
  | @still hrv hfault e keys hshows hrest hlegal heditor =>
    cases keys with
    | nil =>
      have hlen := congrArg length hrest
      have hnil : (encode []).length = 0 := rfl
      have hi := hloop.1
      rw [length_drop, hnil] at hlen
      omega
    | cons key keys =>
      obtain ⟨hkey, hkeys⟩ := hlegal
      obtain ⟨hfault', hfollows, hdrop⟩ := hshows.turn env hrest hkey.1 hkey.2 hexact.1 hexact.2
      have hafter : r.editor = editorMachine.run (editKey e key) keys := heditor
      rcases hfollows with ⟨hrv', hshows'⟩ | ⟨hrv', hclosed, hline, hcursor⟩
      · exact .still hrv' hfault' hshows' hdrop hkeys hafter
      rw [editorMachine_closed hclosed] at hafter
      refine .closed hrv' ?_ ?_
      · exact hline.trans (congrArg Editor.text hafter).symm
      · exact hcursor.trans (congrArg (fun e => (e.cursor : Int)) hafter).symm

lemma EditInv.step {r : EditRun} (h : EditInv r) {ev : EditEvent} (he : editMachine.enabled r ev)
    (hexact : TurnExact r ev) : EditInv (editMachine.step r ev) := by
  cases ev with
  | turn env => exact h.turn env he hexact
  | read keys rest =>
    cases h with
    | closed hrv _ _ => exact absurd he.1.1 hrv
    | @still hrv hfault e old hshows hrest _ heditor =>
      have hnil := keys_taken hshows hrest he.1.2.2.1
      have heq : r.editor = e := by
        rw [heditor, hnil]
        rfl
      have hkeys := he.2
      rw [heq] at hkeys
      exact .still hrv hfault hshows rfl hkeys (congrArg (fun e => editorMachine.run e keys) heq)
  | commands commandlist =>
    cases h with
    | closed hrv _ _ => exact absurd he.1.1 hrv
    | still hrv hfault hshows hrest hlegal heditor =>
      exact .still hrv hfault (hshows.congr rfl rfl rfl rfl rfl) hrest hlegal heditor

def typed (evs : List EditEvent) : List (LineKey UInt8) := evs.flatMap EditEvent.keys

lemma editor_run (r : EditRun) (evs : List EditEvent) :
    (editMachine.run r evs).editor = editorMachine.run r.editor (typed evs) := by
  induction evs generalizing r with
  | nil => rfl
  | cons ev evs ih =>
    have hsplit : editorMachine.run r.editor (typed (ev :: evs)) =
        editorMachine.run (editorMachine.run r.editor ev.keys) (typed evs) := foldl_append
    rw [hsplit]
    exact ih (editMachine.step r ev)

def editStart (st : HistStat) (e : Editor UInt8) : EditRun where
  session := { st := st, buf := ⟨[], fun _ => 0⟩, i := 0, rv := 0, fault := false }
  editor := e

lemma editInv_start (h : Shows st e) : EditInv (editStart st e) :=
  .still rfl rfl h (show List.drop 0 [] = encode [] from rfl) trivial rfl

/-- From every state in command mode, and for every run of reads of printable characters, backspace, arrows, ctrl-A,
ctrl-E, ctrl-C and newline, split between keys in any way, on lines shorter than `BUFSIZE - 1`, in which an arrow is the
last key of its read and ctrl-E finds nothing to complete: after each call the line and the cursor are those of the plain
line editor, and two runs of the same keys end with the same line and cursor. -/
theorem edit_right_of_exact (h : Shows st e) (evs : List EditEvent)
    (hevs : editMachine.Along editMachine.enabled (editStart st e) evs)
    (hexact : editMachine.Along TurnExact (editStart st e) evs) :
    editMachine.Always EditRight (editStart st e) evs ∧ ∀ evs',
    editMachine.Along editMachine.enabled (editStart st e) evs' →
    editMachine.Along TurnExact (editStart st e) evs' → typed evs' = typed evs →
    (editMachine.run (editStart st e) evs).session.Over → (editMachine.run (editStart st e) evs').session.Over →
    (editMachine.run (editStart st e) evs').session.st.linebuf =
    (editMachine.run (editStart st e) evs).session.st.linebuf ∧
    (editMachine.run (editStart st e) evs').session.st.bufindex =
    (editMachine.run (editStart st e) evs).session.st.bufindex := by
  have hall (evs : List EditEvent) (hevs : editMachine.Along editMachine.enabled (editStart st e) evs)
      (hexact : editMachine.Along TurnExact (editStart st e) evs) :
      editMachine.Always EditRight (editStart st e) evs :=
    Machine.Along.always EditInv (fun _ hinv => hinv.right) (fun _ _ hinv hboth => hinv.step hboth.1 hboth.2)
      (editInv_start h) (hevs.and hexact)
  refine ⟨hall evs hevs hexact, fun evs' hevs' hexact' htyped hover hover' => ?_⟩
  have hright := (hall evs hevs hexact).last hover
  have hright' := (hall evs' hevs' hexact').last hover'
  rw [editor_run] at hright hright'
  rw [htyped] at hright'
  exact ⟨hright'.1.trans hright.1.symm, hright'.2.trans hright.2.symm⟩

def letterLeft : List EditEvent :=
  [.read [.char 97] fun _ => 0, .turn plainEnv, .read [.left] fun _ => 0, .turn plainEnv]

lemma letterLeft_enabled :
    editMachine.Along editMachine.enabled (editStart (vdehistNew 3 none) Editor.start) letterLeft := by
  refine ⟨⟨⟨rfl, rfl, fun h => absurd h.1 (by decide), by decide, by decide⟩,
      ⟨⟨⟨by decide, by decide⟩, by decide⟩, by decide⟩, trivial⟩,
    ⟨⟨rfl, rfl, by decide, by decide⟩, trivial⟩,
    ⟨⟨rfl, rfl, fun h => absurd h.1 (by decide), by decide, by decide⟩, ⟨trivial, by decide⟩, trivial⟩,
    ⟨⟨rfl, rfl, by decide, by decide⟩, trivial⟩, trivial⟩

lemma letterLeft_exact : editMachine.Along TurnExact (editStart (vdehistNew 3 none) Editor.start) letterLeft :=
  ⟨trivial, ⟨fun h => absurd h (by decide), fun h => absurd h (by decide)⟩, trivial,
    ⟨fun _ => by decide, fun h => absurd h (by decide)⟩, trivial⟩

theorem edit_right_of_exact_letter :
    editMachine.Always EditRight (editStart (vdehistNew 3 none) Editor.start) letterLeft ∧ ∀ evs',
    editMachine.Along editMachine.enabled (editStart (vdehistNew 3 none) Editor.start) evs' →
    editMachine.Along TurnExact (editStart (vdehistNew 3 none) Editor.start) evs' → typed evs' = typed letterLeft →
    (editMachine.run (editStart (vdehistNew 3 none) Editor.start) letterLeft).session.Over →
    (editMachine.run (editStart (vdehistNew 3 none) Editor.start) evs').session.Over →
    (editMachine.run (editStart (vdehistNew 3 none) Editor.start) evs').session.st.linebuf =
    (editMachine.run (editStart (vdehistNew 3 none) Editor.start) letterLeft).session.st.linebuf ∧
    (editMachine.run (editStart (vdehistNew 3 none) Editor.start) evs').session.st.bufindex =
    (editMachine.run (editStart (vdehistNew 3 none) Editor.start) letterLeft).session.st.bufindex :=
  edit_right_of_exact (shows_new (by decide) none) letterLeft letterLeft_enabled letterLeft_exact

def leftPasted : List EditEvent := [.read [.left, .char 97] fun _ => 0, .turn plainEnv]

def letterEnd : List EditEvent :=
  [.read [.char 115] fun _ => 0, .turn plainEnv, .read [.lineEnd] fun _ => 0, .turn plainEnv]

theorem arrow_skips_and_end_completes :
    (editMachine.Along editMachine.enabled (editStart (vdehistNew 3 none) Editor.start) leftPasted ∧
        ¬editMachine.Always EditRight (editStart (vdehistNew 3 none) Editor.start) leftPasted) ∧
      editMachine.Along editMachine.enabled (editStart (vdehistNew 3 (some [showText])) Editor.start) letterEnd ∧
        ¬editMachine.Always EditRight (editStart (vdehistNew 3 (some [showText])) Editor.start) letterEnd := by
  refine ⟨⟨⟨?_, ?_, trivial⟩, fun h => ?_⟩, ⟨?_, ?_, ?_, ?_, trivial⟩, fun h => ?_⟩
  · exact ⟨⟨rfl, rfl, fun h => absurd h.1 (by decide), by decide, by decide⟩, ⟨trivial, by decide⟩,
      ⟨⟨⟨by decide, by decide⟩, by decide⟩, by decide⟩, trivial⟩
  · exact ⟨⟨rfl, rfl, by decide, by decide⟩, trivial⟩
  · have hline : ([] : List UInt8) = [97] := (h.last (.inl fun hloop => absurd hloop.1 (by decide))).1
    cases hline
  · exact ⟨⟨rfl, rfl, fun h => absurd h.1 (by decide), by decide, by decide⟩,
      ⟨⟨⟨by decide, by decide⟩, by decide⟩, by decide⟩, trivial⟩
  · exact ⟨⟨rfl, rfl, by decide, by decide⟩, trivial⟩
  · exact ⟨⟨rfl, rfl, fun h => absurd h.1 (by decide), by decide, by decide⟩, ⟨trivial, by decide⟩, trivial⟩
  · exact ⟨⟨rfl, rfl, by decide, by decide⟩, trivial⟩
  · have hline : showText ++ [32] = [115] := (h.last (.inl fun hloop => absurd hloop.1 (by decide))).1
    exact absurd hline (by decide)

end Vde.Hist
