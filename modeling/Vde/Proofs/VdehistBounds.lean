import Vde.Lib.Machine
import Vde.Proofs.VdehistKeys

/-!
# The bounds of libvdehist

A terminal as a machine: a read fills the buffer, and each turn of the loop of `vdehist_term_to_mgmt` takes a byte. The
loop looks ahead behind the bytes that were read, and its test lets a byte be inserted into a line of `BUFSIZE - 1`
bytes; all else stays in its bounds.
-/

namespace Vde.Hist

/-- A terminal: the state, the buffer of the last read with the index in it, the result of the last turn, and whether a
line was copied that is not there. -/
structure Session where
  st : HistStat
  buf : Input
  i : Nat
  rv : Int
  fault : Bool

inductive TermEvent where
  | read (buf : Input)
  | turn (env : HistEnv)
  | commands (commandlist : Option (List (List UInt8)))

def Session.Looping (s : Session) : Prop := s.i < s.buf.read.length ∧ s.st.linebuf.length < BUFSIZE

def sessionStep (s : Session) : TermEvent → Session
  | .read buf => { s with buf := buf, i := 0 }
  | .turn env =>
    let t := termTurn env s.buf s.i s.st
    { s with st := t.st, i := t.next, rv := t.rv, fault := t.fault }
  | .commands commandlist => { s with st := { s.st with commandlist := commandlist } }

/-- What can happen next. A result that is not 0 ends the session. -/
def SessionMay (s : Session) : TermEvent → Prop
  | .read buf => ¬s.Looping ∧ 0 < buf.read.length ∧ buf.read.length ≤ BUFSIZE
  | .turn _ => s.Looping
  | .commands _ => ¬s.Looping

def termMachine : Machine Session TermEvent where
  enabled s e := s.rv = 0 ∧ s.fault = false ∧ SessionMay s e
  step := sessionStep

def sessionStart (mgmtfd : Int) (commandlist : Option (List (List UInt8))) : Session where
  st := vdehistNew mgmtfd commandlist
  buf := ⟨[], fun _ => 0⟩
  i := 0
  rv := 0
  fault := false

structure TermRight (s : Session) : Prop where
  cursor : 0 ≤ s.st.bufindex ∧ s.st.bufindex ≤ s.st.linebuf.length
  line : s.st.linebuf.length < BUFSIZE
  histindex : 0 ≤ s.st.histindex ∧ s.st.histindex < HISTORYSIZE

def TurnRight (s : Session) : TermEvent → Prop
  | .turn env =>
    (termTurn env s.buf s.i s.st).looked < s.buf.read.length ∧ (termTurn env s.buf s.i s.st).fault = false
  | _ => True

/-- The bytes that belong to the byte at `i` were read: two behind a 255 and one more behind two of them, and two behind
an escape, with a third behind an arrow. -/
def WasRead (buf : Input) (i : Nat) (status : UInt8) : Prop :=
  (buf.byte i = 255 → i + 2 < buf.read.length ∧
    (buf.byte (i + 1) = 255 → buf.byte (i + 2) ≠ 255 → i + 3 < buf.read.length)) ∧
  (buf.byte i = 27 → i + 2 < buf.read.length ∧
    (buf.byte (i + 1) = 91 → status = HIST_COMMAND → i + 3 < buf.read.length))

def Inserts (buf : Input) (i : Nat) : Prop :=
  KeyInserts (buf.byte i) ∧ (buf.byte i = 255 → buf.byte (i + 1) = 255 ∧ buf.byte (i + 2) = 255)

def TurnFits (s : Session) : TermEvent → Prop
  | .turn _ => WasRead s.buf s.i s.st.status ∧ (Inserts s.buf s.i → s.st.linebuf.length + 1 < BUFSIZE)
  | _ => True

/-! ## Turns -/

variable {env : HistEnv} {buf : Input} {i : Nat} {st : HistStat}

lemma termTurn_double (h : buf.byte i = 255) (h' : buf.byte (i + 1) = 255) :
    termTurn env buf i st = turnAt env buf (i + 1) 255 st := by
  have hboth : buf.byte i = 255 ∧ buf.byte (i + 1) = 255 := ⟨h, h'⟩
  have h0 : ¬buf.byte (i + 1) = 0 := by
    rw [h']
    decide
  rw [termTurn, if_pos hboth, if_neg h0, h']

lemma termTurn_single (h : ¬(buf.byte i = 255 ∧ buf.byte (i + 1) = 255)) :
    termTurn env buf i st = turnAt env buf i (if buf.byte i = 0 then 10 else buf.byte i) st := by
  simp only [termTurn, if_neg h]

structure TurnSpec (buf : Input) (i : Nat) (st : HistStat) (t : Turn) : Prop where
  fault : t.fault = false
  looked : i < buf.read.length → (t.looked < buf.read.length ↔ WasRead buf i st.status)
  inv : (Inserts buf i → st.linebuf.length + 1 < BUFSIZE) → HistInv t.st
  grows : Inserts buf i → t.st.linebuf.length = st.linebuf.length + 1

lemma HistInv.telnetOptions (h : HistInv st) (action object : UInt8) :
    HistInv (Hist.telnetOptions st action object).1 := by
  have hhello : HistInv (if st.telnetprotocol then st else { st with telnetprotocol := true, echo := false }) := by
    cases st.telnetprotocol with
    | true => exact h
    | false => exact h.congr rfl rfl rfl rfl
  unfold Hist.telnetOptions
  dsimp only
  generalize (if st.telnetprotocol then st else { st with telnetprotocol := true, echo := false }) = st' at hhello ⊢
  by_cases hecho : action = DO ∧ object = TELOPT_ECHO
  · rw [if_pos hecho]
    exact hhello.congr rfl rfl rfl rfl
  rw [if_neg hecho]
  split_ifs <;> exact hhello

lemma turnAt_telnet (env : HistEnv) (h : buf.byte (i + 1) ≠ 255) (st : HistStat) :
    turnAt env buf i 255 st =
      ⟨i + 3, 0, { (telnetOptions st (buf.byte (i + 1)) (buf.byte (i + 2))).1 with lastchar := buf.byte (i + 2) },
        (telnetOptions st (buf.byte (i + 1)) (buf.byte (i + 2))).2, i + 2, false⟩ :=
  if_pos ⟨rfl, h⟩

lemma turnAt_key (env : HistEnv) {c : UInt8} (h : ¬(c = 255 ∧ buf.byte (i + 1) ≠ 255)) (hesc : c ≠ 27)
    (hinv : HistInv st) : (turnAt env buf i c st).fault = false ∧ (turnAt env buf i c st).looked =
    (if c = 255 then i + 1 else i) ∧ (turnAt env buf i c st).st.linebuf = (termKey env c st).st.linebuf ∧
    ((KeyInserts c → st.linebuf.length + 1 < BUFSIZE) → HistInv (turnAt env buf i c st).st) := by
  rw [turnAt, if_neg h, if_neg hesc]
  dsimp only
  by_cases hrv : (termKey env c st).rv ≠ 0
  · rw [if_pos hrv]
    exact ⟨rfl, rfl, rfl, fun hroom => hinv.termKey env c hroom⟩
  rw [if_neg hrv]
  exact ⟨rfl, rfl, rfl, fun hroom => (hinv.termKey env c hroom).congr rfl rfl rfl rfl⟩

lemma turnAt_escape (env : HistEnv) (buf : Input) (i : Nat) (hinv : HistInv st) : (turnAt env buf i 27 st).fault =
    false ∧ (turnAt env buf i 27 st).looked =
    (if buf.byte (i + 1) = 91 ∧ st.status = HIST_COMMAND then i + 3 else i + 2) ∧
    HistInv (turnAt env buf i 27 st).st := by
  have hff : ¬((27 : UInt8) = 255 ∧ buf.byte (i + 1) ≠ 255) := fun h => absurd h.1 (by decide)
  rw [turnAt, if_neg hff, if_pos rfl]
  by_cases harrow : buf.byte (i + 1) = 91 ∧ st.status = HIST_COMMAND
  · have hedited : HistInv { st with edited := true } := hinv.congr rfl rfl rfl rfl
    obtain ⟨st', out, hcall, hst', _⟩ := hedited.arrow env (buf.byte (i + 2))
    rw [if_pos harrow, if_pos harrow, hcall]
    exact ⟨rfl, rfl, hst'.congr rfl rfl rfl rfl⟩
  rw [if_neg harrow, if_neg harrow]
  exact ⟨rfl, rfl, hinv.congr rfl rfl rfl rfl⟩

lemma turnSpec (env : HistEnv) (buf : Input) (i : Nat) (hinv : HistInv st) :
    TurnSpec buf i st (termTurn env buf i st) := by
  by_cases hff : buf.byte i = 255
  · have hnoesc : ¬buf.byte i = 27 := by
      rw [hff]
      decide
    by_cases hnext : buf.byte (i + 1) = 255
    · rw [termTurn_double hff hnext]
      by_cases hthird : buf.byte (i + 2) = 255
      · obtain ⟨hfault, hlooked, hline, hkeeps⟩ := turnAt_key (i := i + 1) env (c := 255)
          (fun h => h.2 hthird) (by decide) hinv
        have hkey : KeyInserts 255 := ⟨by decide, by decide⟩
        have hins : Inserts buf i := ⟨hff ▸ hkey, fun _ => ⟨hnext, hthird⟩⟩
        refine ⟨hfault, fun hi => ?_, fun hroom => hkeeps fun _ => hroom hins, fun _ => ?_⟩
        · rw [hlooked, if_pos rfl]
          exact ⟨fun h => ⟨fun _ => ⟨h, fun _ hno => absurd hthird hno⟩, fun h27 => absurd h27 hnoesc⟩,
            fun h => (h.1 hff).1⟩
        rw [hline, (termKey_inserts env hkey st).2]
        exact length_insert 255 st
      rw [turnAt_telnet env hthird st]
      have hins : ¬Inserts buf i := fun h => hthird (h.2 hff).2
      refine ⟨rfl, fun hi => ?_, fun _ => (hinv.telnetOptions _ _).congr rfl rfl rfl rfl,
        fun h => absurd h hins⟩
      exact ⟨fun h => ⟨fun _ => ⟨Nat.lt_of_succ_lt h, fun _ _ => h⟩, fun h27 => absurd h27 hnoesc⟩,
        fun h => (h.1 hff).2 hnext hthird⟩
    rw [termTurn_single fun h => hnext h.2, if_neg (by rw [hff]; decide), hff, turnAt_telnet env hnext st]
    have hins : ¬Inserts buf i := fun h => hnext (h.2 hff).1
    refine ⟨rfl, fun hi => ?_, fun _ => (hinv.telnetOptions _ _).congr rfl rfl rfl rfl,
      fun h => absurd h hins⟩
    exact ⟨fun h => ⟨fun _ => ⟨h, fun h' => absurd h' hnext⟩, fun h27 => absurd h27 hnoesc⟩,
      fun h => (h.1 hff).1⟩
  rw [termTurn_single fun h => hff h.1]
  by_cases hesc : buf.byte i = 27
  · rw [if_neg (by rw [hesc]; decide), hesc]
    obtain ⟨hfault, hlooked, hkeeps⟩ := turnAt_escape env buf i hinv
    have hins : ¬Inserts buf i := by
      rintro ⟨⟨hlow, _⟩, _⟩
      rw [hesc] at hlow
      exact absurd hlow (by decide)
    refine ⟨hfault, fun hi => ?_, fun _ => hkeeps, fun h => absurd h hins⟩
    rw [hlooked]
    by_cases harrow : buf.byte (i + 1) = 91 ∧ st.status = HIST_COMMAND
    · rw [if_pos harrow]
      exact ⟨fun h => ⟨fun h' => absurd h' hff, fun _ => ⟨Nat.lt_of_succ_lt h, fun _ _ => h⟩⟩,
        fun h => (h.2 hesc).2 harrow.1 harrow.2⟩
    rw [if_neg harrow]
    exact ⟨fun h => ⟨fun h' => absurd h' hff, fun _ => ⟨h, fun h91 hst => absurd ⟨h91, hst⟩ harrow⟩⟩,
      fun h => (h.2 hesc).1⟩
  have hkeys : KeyInserts (if buf.byte i = 0 then 10 else buf.byte i) ↔ KeyInserts (buf.byte i) := by
    by_cases hzero : buf.byte i = 0
    · rw [if_pos hzero, hzero]
      exact ⟨fun h => absurd h.1 (by decide), fun h => absurd h.1 (by decide)⟩
    · rw [if_neg hzero]
  have hins : Inserts buf i ↔ KeyInserts (if buf.byte i = 0 then 10 else buf.byte i) :=
    ⟨fun h => hkeys.mpr h.1, fun h => ⟨hkeys.mp h, fun h' => absurd h' hff⟩⟩
  have hnoff : ¬(if buf.byte i = 0 then 10 else buf.byte i) = 255 := by
    by_cases hzero : buf.byte i = 0
    · rw [if_pos hzero]
      decide
    rw [if_neg hzero]
    exact hff
  have hnoesc : (if buf.byte i = 0 then 10 else buf.byte i) ≠ 27 := by
    by_cases hzero : buf.byte i = 0
    · rw [if_pos hzero]
      decide
    rw [if_neg hzero]
    exact hesc
  generalize (if buf.byte i = 0 then 10 else buf.byte i) = c at hins hnoff hnoesc ⊢
  obtain ⟨hfault, hlooked, hline, hkeeps⟩ := turnAt_key (i := i) env (fun h => hnoff h.1) hnoesc hinv
  refine ⟨hfault, fun hi => ?_, fun hroom => hkeeps fun hc => hroom (hins.mpr hc), fun h => ?_⟩
  · rw [hlooked, if_neg hnoff]
    exact ⟨fun _ => ⟨fun h' => absurd h' hff, fun h' => absurd h' hesc⟩, fun _ => hi⟩
  rw [hline, (termKey_inserts env (hins.mp h) st).2]
  exact length_insert c st

/-! ## Runs -/

lemma turnAt_next (env : HistEnv) (buf : Input) (i : Nat) (c : UInt8) (st : HistStat) :
    i < (turnAt env buf i c st).next := by
  unfold turnAt
  by_cases htelnet : c = 255 ∧ buf.byte (i + 1) ≠ 255
  · rw [if_pos htelnet]
    exact Nat.lt_add_of_pos_right (by decide)
  rw [if_neg htelnet]
  by_cases hesc : c = 27
  · rw [if_pos hesc]
    by_cases harrow : buf.byte (i + 1) = 91 ∧ st.status = HIST_COMMAND
    · rw [if_pos harrow]
      cases arrow env (buf.byte (i + 2)) { st with edited := true } with
      | none => exact Nat.lt_add_of_pos_right (by decide)
      | some r => exact Nat.lt_add_of_pos_right (by decide)
    rw [if_neg harrow]
    exact Nat.lt_add_of_pos_right (by decide)
  rw [if_neg hesc]
  dsimp only
  by_cases hrv : (termKey env c st).rv ≠ 0
  · rw [if_pos hrv]
    exact Nat.lt_succ_self i
  rw [if_neg hrv]
  exact Nat.lt_succ_self i

lemma termTurn_next (env : HistEnv) (buf : Input) (i : Nat) (st : HistStat) : i < (termTurn env buf i st).next := by
  by_cases hdouble : buf.byte i = 255 ∧ buf.byte (i + 1) = 255
  · rw [termTurn_double hdouble.1 hdouble.2]
    exact Nat.lt_of_succ_lt (turnAt_next env buf (i + 1) 255 st)
  rw [termTurn_single hdouble]
  exact turnAt_next env buf i _ st

structure Finishes (s : Session) (es : List TermEvent) (done : Done) : Prop where
  enabled : termMachine.Along termMachine.enabled s es
  st : (termMachine.run s es).st = done.st
  rv : (termMachine.run s es).rv = done.rv
  ended : ¬(termMachine.run s es).Looping ∨ (termMachine.run s es).rv ≠ 0 ∨ (termMachine.run s es).fault = true

lemma termLoop_run (env : HistEnv) (turns : Nat) (s : Session) (hrv : s.rv = 0) (hfault : s.fault = false)
    (henough : s.buf.read.length ≤ s.i + turns) :
    ∃ k, Finishes s (List.replicate k (.turn env)) (termLoop env s.buf turns s.i s.st) := by
  induction turns generalizing s with
  | zero =>
    have hover : ¬s.Looping := fun h => absurd h.1 (Nat.not_lt.mpr henough)
    exact ⟨0, trivial, rfl, hrv, .inl hover⟩
  | succ turns ih =>
    rw [termLoop]
    by_cases hloop : s.i < s.buf.read.length ∧ s.st.linebuf.length < BUFSIZE
    · rw [if_pos hloop]
      dsimp only
      by_cases hleaves : (termTurn env s.buf s.i s.st).rv ≠ 0 ∨ (termTurn env s.buf s.i s.st).fault = true
      · rw [if_pos hleaves]
        exact ⟨1, ⟨⟨hrv, hfault, hloop⟩, trivial⟩, rfl, rfl, .inr hleaves⟩
      rw [if_neg hleaves]
      have hgoes : (termTurn env s.buf s.i s.st).rv = 0 ∧ (termTurn env s.buf s.i s.st).fault = false :=
        ⟨Classical.byContradiction fun h => hleaves (.inl h), Bool.eq_false_iff.mpr fun h => hleaves (.inr h)⟩
      have hnext := termTurn_next env s.buf s.i s.st
      have hless : (sessionStep s (.turn env)).buf.read.length ≤ (sessionStep s (.turn env)).i + turns := by
        change s.buf.read.length ≤ (termTurn env s.buf s.i s.st).next + turns
        omega
      obtain ⟨k, hrun⟩ := ih (sessionStep s (.turn env)) hgoes.1 hgoes.2 hless
      exact ⟨k + 1, ⟨⟨hrv, hfault, hloop⟩, hrun.enabled⟩, hrun.st, hrun.rv, hrun.ended⟩
    rw [if_neg hloop]
    exact ⟨0, trivial, rfl, hrv, .inl hloop⟩

/-- A call of `vdehist_term_to_mgmt` is a run of the session: the read, and then turns until the loop is left. -/
lemma vdehistTermToMgmt_run (env : HistEnv) {buf : Input} {s : Session} (hread : termMachine.enabled s (.read buf)) :
    ∃ k, Finishes s (.read buf :: List.replicate k (.turn env)) (vdehistTermToMgmt env buf s.st) := by
  obtain ⟨hrv, hfault, hmay⟩ := hread
  have hsome : buf.read ≠ [] := List.ne_nil_of_length_pos hmay.2.1
  obtain ⟨k, hrun⟩ := termLoop_run env buf.read.length (sessionStep s (.read buf)) hrv hfault
    (Nat.le_add_left _ _)
  rw [vdehistTermToMgmt, if_neg hsome]
  exact ⟨k, ⟨⟨hrv, hfault, hmay⟩, hrun.enabled⟩, hrun.st, hrun.rv, hrun.ended⟩

lemma HistInv.termRight {s : Session} (h : HistInv s.st) : TermRight s := ⟨h.cursor, h.line, h.histindex⟩

/-- For every new terminal and every run of reads, turns and changes of the list of commands: the bounds hold in every
state, every byte that is looked at was read and every line that is copied is there, exactly when each turn finds read
what belongs to its byte, and no byte is inserted into a line of `BUFSIZE - 1` bytes. -/
theorem session_right_iff (mgmtfd : Int) (commandlist : Option (List (List UInt8))) (es : List TermEvent)
    (hes : termMachine.Along termMachine.enabled (sessionStart mgmtfd commandlist) es) :
    termMachine.Always TermRight (sessionStart mgmtfd commandlist) es ∧
    termMachine.Along TurnRight (sessionStart mgmtfd commandlist) es ↔
    termMachine.Along TurnFits (sessionStart mgmtfd commandlist) es := by
  refine Machine.always_and_along_iff (fun s => HistInv s.st) (fun _ h => h.termRight) ?_ ?_
    (histInv_new mgmtfd commandlist) es hes
  · intro s e h he hfits
    cases e with
    | read buf => exact ⟨h, trivial⟩
    | commands commandlist => exact ⟨h.congr rfl rfl rfl rfl, trivial⟩
    | turn env =>
      have hspec := turnSpec env s.buf s.i h
      exact ⟨hspec.inv hfits.2, (hspec.looked he.2.2.1).mpr hfits.1, hspec.fault⟩
  intro s e h he hnot hright
  cases e with
  | read buf => exact hnot trivial
  | commands commandlist => exact hnot trivial
  | turn env =>
    have hspec := turnSpec env s.buf s.i h
    have hlooked : (termTurn env s.buf s.i s.st).looked < s.buf.read.length := hright.2.1
    refine hnot ⟨(hspec.looked he.2.2.1).mp hlooked, fun hins => ?_⟩
    have hline : (termTurn env s.buf s.i s.st).st.linebuf.length < BUFSIZE := hright.1.line
    rw [hspec.grows hins] at hline
    exact hline

def plainEnv : HistEnv where
  prompt := []
  logincmd := fun st => ⟨st.status, st.mgmtfd, none, []⟩
  createCommandlist := fun _ => none

def oneLetter : List TermEvent := [.read ⟨[97], fun _ => 0⟩, .turn plainEnv]

lemma oneLetter_enabled : termMachine.Along termMachine.enabled (sessionStart 3 none) oneLetter :=
  ⟨⟨rfl, rfl, fun h => absurd h.1 (by decide), by decide, by decide⟩, ⟨rfl, rfl, by decide, by decide⟩, trivial⟩

theorem session_right_iff_letter : termMachine.Always TermRight (sessionStart 3 none) oneLetter ∧
    termMachine.Along TurnRight (sessionStart 3 none) oneLetter :=
  (session_right_iff 3 none oneLetter oneLetter_enabled).mpr
    ⟨trivial, ⟨⟨fun h => absurd h (by decide), fun h => absurd h (by decide)⟩, fun _ => by decide⟩, trivial⟩

def oneArrow : List TermEvent := [.read ⟨[27, 91, 68], fun _ => 0⟩, .turn plainEnv]

theorem arrow_looks_behind :
    termMachine.Along termMachine.enabled (sessionStart 3 none) oneArrow ∧
      ¬(termMachine.Always TermRight (sessionStart 3 none) oneArrow ∧
        termMachine.Along TurnRight (sessionStart 3 none) oneArrow) := by
  refine ⟨⟨⟨rfl, rfl, fun h => absurd h.1 (by decide), by decide, by decide⟩, ⟨rfl, rfl, by decide, by decide⟩,
    trivial⟩, fun h => ?_⟩
  have hlooked : 3 < 3 := h.2.2.1.1
  exact absurd hlooked (by decide)

end Vde.Hist
