import Vde.Proofs.DnsNames
import Vde.Proofs.UtmFlow

/-!
# The cursor of a parsing machine

`curr` is an index into what has been read, which ends with a zero byte at `len`. Only `SKIP` can take it out of this
text: by a number, and by a string, where the source subtracts from the string of the state and not from its place in
`linebuf`.
-/

namespace Vde.Cmd

open Function Bool

structure CursorRight (r : Run) : Prop where
  curr : 0 ≤ r.curr ∧ r.curr ≤ r.len
  len : r.len ≤ r.linebufsize
  ends : r.hasLine = true → r.reading = false → r.linebuf.load r.len = some 0

def skipPlace (r : Run) (s : UtmState) : Option Nat := if s.string = [] then none else strstr (r.textAt 0) s.string

def SkipRight (prog : List UtmState) (r : Run) (finds : Finds) : Prop :=
  ∀ s next k, r.status = s :: next → s.command = .SKIP → r.hasLine = true → skipPlace r s = some k →
    (runStep prog r finds).curr = k + s.string.length

def skipDifference (r : Run) (s : UtmState) (finds : Finds) : Int := toInt32 (finds.string + s.string.length - r.addr)

/-- A `SKIP` by a number stays in the line or goes over its end. For a string that occurs, the end of the string of the
state is by chance as far behind `linebuf` as the end of the occurrence; or it is farther away than the end of the line,
and the line ends with the occurrence. -/
def SkipExact (r : Run) (finds : Finds) : Prop :=
  ∀ s next, r.status = s :: next → s.command = .SKIP → r.hasLine = true →
    match skipPlace r s with
    | none => 0 ≤ toInt32 (r.curr + s.nextnum)
    | some k =>
      skipDifference r s finds = k + s.string.length ∨
        (r.len < skipDifference r s finds ∧ k + s.string.length = r.len)

structure CursorInv (r : Run) : Prop extends CursorRight r where
  empty : r.hasLine = false → r.linebufsize = 0
  size : r.hasLine = true → r.linebuf.size = r.linebufsize + 1
  input : r.reading = true → ∃ s next, r.status = s :: next ∧ s.command = .IN

variable {prog : List UtmState} {r r' : Run} {s : UtmState} {next : List UtmState} {finds : Finds}

lemma hasLine_iff : r.hasLine = true ↔ 0 < r.linebuf.size := by
  rw [Run.hasLine, decide_eq_true_eq]
  omega

lemma put_eq {i : Nat} (h : i < r.linebuf.size) (c : UInt8) :
    r.put i c = { r with linebuf := { r.linebuf with elems := update r.linebuf.elems i c } } := by
  rw [Run.put, Block.store, if_pos h]

lemma cursorInv_start (prog : List UtmState) (inbuf : UtmBuf) (argv : List (List UInt8)) :
    CursorInv (runStart prog inbuf argv) where
  curr := ⟨Int.le_refl 0, Int.le_refl 0⟩
  len := Nat.le_refl 0
  ends := fun h => absurd h false_ne_true
  empty := fun _ => rfl
  size := fun h => absurd h false_ne_true
  input := fun h => absurd h false_ne_true

lemma CursorInv.same (h : CursorInv r) (hread : r.reading = false) (hline : r'.linebuf = r.linebuf)
    (hlen : r'.len = r.len) (hcurr : r'.curr = r.curr) (hsize : r'.linebufsize = r.linebufsize)
    (hreading : r'.reading = r.reading) : CursorInv r' where
  curr := by
    rw [hcurr, hlen]
    exact h.curr
  len := by
    rw [hlen, hsize]
    exact h.len
  ends := by
    rw [Run.hasLine, hline, hlen, hreading]
    exact h.ends
  empty := by
    rw [Run.hasLine, hline, hsize]
    exact h.empty
  size := by
    rw [Run.hasLine, hline, hsize]
    exact h.size
  input := by
    rw [hreading, hread]
    exact fun hno => absurd hno false_ne_true

lemma CursorInv.grow (h : CursorInv r) (hgrow : r.grow finds = some r') :
    r'.len = r.len ∧ r'.curr = r.curr ∧ r.len < r'.linebufsize ∧ r'.linebuf.size = r'.linebufsize + 1 := by
  have hlen := h.len
  unfold Run.grow at hgrow
  split_ifs at hgrow with hfull hroom
  · cases hgrow
    refine ⟨rfl, rfl, ?_, rfl⟩
    change r.len < r.linebufsize + BUFSIZE
    have hpos : 0 < BUFSIZE := by decide
    omega
  cases hgrow
  refine ⟨rfl, rfl, by omega, h.size ?_⟩
  by_contra hno
  have hzero := h.empty (eq_false_iff.mpr hno)
  omega

lemma cursorInv_ended (hcurr : 0 ≤ r.curr ∧ r.curr ≤ r.len) (hlen : r.len ≤ r.linebufsize)
    (hsize : r.linebuf.size = r.linebufsize + 1) (hend : r.linebuf.elems r.len = 0) (hread : r.reading = false) :
    CursorInv r where
  curr := hcurr
  len := hlen
  ends := fun _ _ => Block.load_eq_some.mpr ⟨by omega, hend⟩
  empty := by
    intro hno
    rw [Run.hasLine, decide_eq_false_iff_not] at hno
    omega
  size := fun _ => hsize
  input := fun hno => absurd (hread.symm.trans hno) false_ne_true

lemma CursorInv.throw (h : CursorInv r) (hread : r.reading = false) (status : List UtmState) :
    CursorInv { (if r.hasLine then r.put 0 0 else r) with curr := 0, len := 0, status := status } := by
  by_cases hline : r.hasLine = true
  · have hin : 0 < r.linebuf.size := hasLine_iff.mp hline
    rw [if_pos hline, put_eq hin]
    have hend : update r.linebuf.elems 0 0 0 = 0 := update_self _ _ _
    exact cursorInv_ended ⟨Int.le_refl 0, Int.le_refl 0⟩ (Nat.zero_le _) (h.size hline) hend hread
  rw [if_neg hline]
  exact
    { curr := ⟨Int.le_refl 0, Int.le_refl 0⟩
      len := Nat.zero_le _
      ends := fun hno => absurd hno hline
      empty := h.empty
      size := h.size
      input := fun hno => absurd (hread.symm.trans hno) false_ne_true }

lemma CursorInv.takes (h : CursorInv r) (hstatus : r.status = s :: next) (hcommand : s.command = .IN)
    (prog : List UtmState) (finds : Finds) : CursorInv (r.input prog s next finds) := by
  rw [Run.input]
  cases hgrow : r.grow finds with
  | none =>
    exact
      { curr := h.curr
        len := h.len
        ends := h.ends
        empty := h.empty
        size := h.size
        input := h.input }
  | some r1 =>
    obtain ⟨hlen, hcurr, hroom, hsize⟩ := h.grow hgrow
    have hbounds := h.curr
    rw [← hlen] at hroom
    rw [← hcurr, ← hlen] at hbounds
    have hin : r1.len < r1.linebuf.size := by omega
    dsimp only
    cases readchar r1.inbuf finds.poll with
    | mk c inbuf =>
      cases c with
      | none =>
        dsimp only
        rw [put_eq (r := { r1 with inbuf := inbuf }) hin]
        exact cursorInv_ended hbounds hroom.le hsize (update_self _ _ _) rfl
      | some c =>
        have hmore : 0 ≤ r1.curr ∧ r1.curr ≤ ((r1.len + 1 : Nat) : Int) := by omega
        dsimp only
        rw [put_eq (r := { r1 with inbuf := inbuf }) hin]
        dsimp only
        split
        · rw [put_eq]
          · exact cursorInv_ended hmore hroom hsize (update_self _ _ _) rfl
          change r1.len + 1 < r1.linebuf.size
          omega
        exact
          { curr := hmore
            len := hroom
            ends := fun _ hno => absurd hno.symm false_ne_true
            empty := by
              intro hno
              rw [Run.hasLine, decide_eq_false_iff_not] at hno
              dsimp only at hno
              omega
            size := fun _ => hsize
            input := fun _ => ⟨s, next, (grow_status hgrow).trans hstatus, hcommand⟩ }

/-! ## SKIP -/

lemma cString_length_le {text : List UInt8} {i : Nat} (h : text[i]? = some 0) : (cString text).length ≤ i := by
  by_contra hlt
  have hi : i < (cString text).length := Nat.lt_of_not_le hlt
  have hget : (cString text)[i] = 0 := by
    have hpre : cString text <+: text := List.takeWhile_prefix _
    rw [hpre.getElem hi]
    exact (List.getElem?_eq_some_iff.mp h).2
  have hzero : (0 : UInt8) ∈ cString text := hget ▸ List.getElem_mem hi
  unfold cString at hzero
  have hno := List.mem_takeWhile_imp hzero
  exact absurd hno (by decide)

lemma CursorInv.skipPlace_le (h : CursorInv r) (hread : r.reading = false) (hline : r.hasLine = true) {k : Nat}
    (hk : skipPlace r s = some k) : k + s.string.length ≤ r.len := by
  unfold skipPlace at hk
  split_ifs at hk
  obtain ⟨hpre, hle, -⟩ := strstr_eq_some.mp hk
  have hshort := hpre.length_le
  have hend := Block.load_eq_some.mp (h.ends hline hread)
  -- the text ends at the zero byte behind the line
  have htext : (r.textAt 0).length ≤ r.len := by
    refine cString_length_le ?_
    have hin : r.len < (readBytes r.linebuf.elems 0 (r.linebuf.size - 0)).length := by
      rw [readBytes_length]
      exact hend.1
    rw [List.getElem?_eq_getElem hin, readBytes_getElem, Nat.zero_add, hend.2]
  rw [List.length_drop] at hshort
  omega

lemma skip_curr (r : Run) (s : UtmState) (finds : Finds) :
    (r.skip s finds).curr =
      min (if (skipPlace r s).isSome then skipDifference r s finds else toInt32 (r.curr + s.nextnum)) (r.len : Int) := by
  have hmin : ∀ curr : Int, (if (r.len : Int) < curr then (r.len : Int) else curr) = min curr r.len := by
    intro curr
    omega
  unfold Run.skip skipPlace
  dsimp only
  rw [hmin]
  by_cases hempty : s.string = []
  · rw [if_pos hempty, if_neg fun h => h.1 hempty, Option.isSome_none, if_neg Bool.false_ne_true]
  rw [if_neg hempty]
  cases strstr (r.textAt 0) s.string with
  | none =>
    rw [if_neg fun h => Bool.false_ne_true h.2]
    rfl
  | some k =>
    rw [if_pos ⟨hempty, rfl⟩]
    rfl

lemma CursorInv.skip (h : CursorInv r) (hread : r.reading = false) (hline : r.hasLine = true) :
    (0 ≤ (r.skip s finds).curr ∧ ∀ k, skipPlace r s = some k → (r.skip s finds).curr = k + s.string.length) ↔
      match skipPlace r s with
      | none => 0 ≤ toInt32 (r.curr + s.nextnum)
      | some k =>
        skipDifference r s finds = k + s.string.length ∨
          (r.len < skipDifference r s finds ∧ k + s.string.length = r.len) := by
  rw [skip_curr]
  cases hplace : skipPlace r s with
  | none =>
    rw [Option.isSome_none, if_neg Bool.false_ne_true]
    dsimp only
    constructor
    · rintro ⟨hpos, -⟩
      omega
    intro hpos
    exact ⟨by omega, fun k hk => by cases hk⟩
  | some k =>
    have hle := h.skipPlace_le hread hline hplace
    rw [Option.isSome_some, if_pos rfl]
    dsimp only
    constructor
    · rintro ⟨-, hright⟩
      have hk := hright k rfl
      omega
    intro hchance
    refine ⟨by omega, fun k' hk' => ?_⟩
    cases hk'
    omega

/-! ## Steps -/

lemma CursorInv.not_reading (h : CursorInv r) (hstatus : r.status = s :: next) (hcommand : s.command ≠ .IN) :
    r.reading = false := by
  refine eq_false_iff.mpr fun hread => ?_
  obtain ⟨s', next', hstatus', hin⟩ := h.input hread
  rw [hstatus] at hstatus'
  cases hstatus'
  exact hcommand hin

lemma CursorInv.runState (h : CursorInv r) (hstatus : r.status = s :: next) (hcommand : s.command ≠ .SKIP)
    (prog : List UtmState) (finds : Finds) : CursorInv (runState prog r s next finds) := by
  by_cases hin : s.command = .IN
  · rw [Cmd.runState, hin]
    exact h.takes hstatus hin prog finds
  have hread : r.reading = false := h.not_reading hstatus hin
  unfold Cmd.runState
  cases hs : s.command with
  | IN => exact absurd hs hin
  | SKIP => exact absurd hs hcommand
  | THROW => exact h.throw hread next
  | SEND =>
    dsimp only
    cases sendText r.args s.string with
    | none => exact h.same hread rfl rfl rfl rfl rfl
    | some text => exact h.same hread rfl rfl rfl rfl rfl
  | COPY =>
    dsimp only
    split_ifs
    · exact h.same hread rfl rfl rfl rfl rfl
    · exact h.same hread rfl rfl rfl rfl rfl
    · exact h.same hread rfl rfl rfl rfl rfl
  | OUTSHIFT =>
    dsimp only
    split_ifs
    · exact h.same hread rfl rfl rfl rfl rfl
    · exact h.same hread rfl rfl rfl rfl rfl
  | _ => exact h.same hread rfl rfl rfl rfl rfl

lemma runStep_skip (prog : List UtmState) (finds : Finds) (hstatus : r.status = s :: next)
    (hcommand : s.command = .SKIP) (hline : r.hasLine = true) :
    runStep prog r finds = { r.skip s finds with status := next } := by
  unfold runStep
  rw [hstatus]
  dsimp only
  unfold Cmd.runState
  rw [hcommand]
  dsimp only
  rw [if_pos hline]

lemma CursorInv.step (h : CursorInv r) (prog : List UtmState) (finds : Finds)
    (hskip : ∀ s next, r.status = s :: next → s.command = .SKIP → r.hasLine = true → False) :
    CursorInv (runStep prog r finds) := by
  unfold runStep
  cases hstatus : r.status with
  | nil =>
    have hread : r.reading = false := by
      refine eq_false_iff.mpr fun hread => ?_
      obtain ⟨s, next, hcons, -⟩ := h.input hread
      rw [hstatus] at hcons
      cases hcons
    exact h.same hread rfl rfl rfl rfl rfl
  | cons s next =>
    dsimp only
    by_cases hcommand : s.command = .SKIP
    · have hread : r.reading = false := h.not_reading hstatus (hcommand ▸ by decide)
      unfold Cmd.runState
      rw [hcommand]
      dsimp only
      rw [if_neg fun hline => hskip s next hstatus hcommand hline]
      exact h.same hread rfl rfl rfl rfl rfl
    · exact h.runState hstatus hcommand prog finds

lemma CursorInv.skipExact (h : CursorInv r) (prog : List UtmState) (hexact : SkipExact r finds) :
    CursorInv (runStep prog r finds) ∧ SkipRight prog r finds := by
  constructor
  · by_cases hskip : ∃ s next, r.status = s :: next ∧ s.command = .SKIP ∧ r.hasLine = true
    · obtain ⟨s, next, hstatus, hcommand, hline⟩ := hskip
      have hread : r.reading = false := h.not_reading hstatus (hcommand ▸ by decide)
      have hpos := ((h.skip hread hline).mpr (hexact s next hstatus hcommand hline)).1
      rw [runStep_skip prog finds hstatus hcommand hline]
      have hle : (r.skip s finds).curr ≤ r.len := by
        rw [skip_curr]
        exact min_le_right _ _
      exact cursorInv_ended ⟨hpos, hle⟩ h.len (h.size hline) (Block.load_eq_some.mp (h.ends hline hread)).2 hread
    · exact h.step prog finds fun s next hstatus hcommand hline => hskip ⟨s, next, hstatus, hcommand, hline⟩
  intro s next k hstatus hcommand hline hk
  have hread : r.reading = false := h.not_reading hstatus (hcommand ▸ by decide)
  rw [runStep_skip prog finds hstatus hcommand hline]
  exact ((h.skip hread hline).mpr (hexact s next hstatus hcommand hline)).2 k hk

lemma CursorInv.exact (h : CursorInv r) (hright : CursorRight (runStep prog r finds)) (hskip : SkipRight prog r finds) :
    SkipExact r finds := by
  intro s next hstatus hcommand hline
  have hread : r.reading = false := h.not_reading hstatus (hcommand ▸ by decide)
  have hstep := runStep_skip prog finds hstatus hcommand hline
  refine (h.skip hread hline).mp ⟨?_, fun k hk => ?_⟩
  · have hcurr := hright.curr.1
    rw [hstep] at hcurr
    exact hcurr
  have hcurr := hskip s next k hstatus hcommand hline hk
  rw [hstep] at hcurr
  exact hcurr

/-- With every program and every input, the cursor stays within what was read, and a `SKIP` goes behind the first
occurrence of its string, as long as each `SKIP` by a number does not go in front of the line, and each pointer
difference of a `SKIP` by a string has the right value by chance. -/
theorem cursor_right_iff (prog : List UtmState) (inbuf : UtmBuf) (argv : List (List UInt8)) (found : List Finds)
    (hfound : (runMachine prog).Along (runMachine prog).enabled (runStart prog inbuf argv) found) :
    (runMachine prog).Always CursorRight (runStart prog inbuf argv) found ∧
    (runMachine prog).Along (SkipRight prog) (runStart prog inbuf argv) found ↔
    (runMachine prog).Along SkipExact (runStart prog inbuf argv) found := by
  refine Machine.always_and_along_iff CursorInv (fun r h => h.toCursorRight) ?_ ?_ (cursorInv_start prog inbuf argv)
    found hfound
  · intro r finds h _ hexact
    exact h.skipExact prog hexact
  rintro r finds h _ hbad ⟨hright, hskip⟩
  exact hbad (h.exact hright hskip)

theorem cursor_right_iff_line :
    (runMachine lineProgram).Always CursorRight (runStart lineProgram emptyBuf []) [newlineRead, newlineRead] ∧
    (runMachine lineProgram).Along (SkipRight lineProgram) (runStart lineProgram emptyBuf [])
      [newlineRead, newlineRead] := by
  refine (cursor_right_iff lineProgram emptyBuf [] [newlineRead, newlineRead] ⟨rfl, rfl, trivial⟩).mpr ⟨?_, ?_, trivial⟩
  · rintro s next ⟨⟩ hskip
    cases hskip
  rintro s next ⟨⟩ hskip
  cases hskip

def skipProgram : List UtmState := [⟨1, .IN, [10], 9⟩, ⟨2, .SKIP, [10], 0⟩, ⟨9, .EXIT, [], -1⟩]

def farRead : Finds := { newlineRead with addr := 8192, string := 4096 }

/-- The newline ends the line, and the cursor becomes negative. -/
theorem skip_in_front :
    ¬((runMachine skipProgram).Always CursorRight (runStart skipProgram emptyBuf []) [farRead, farRead] ∧
      (runMachine skipProgram).Along (SkipRight skipProgram) (runStart skipProgram emptyBuf []) [farRead, farRead]) := by
  rintro ⟨-, -, hright, -⟩
  have hcurr := hright ⟨2, .SKIP, [10], 0⟩ [⟨9, .EXIT, [], -1⟩] 0 rfl rfl rfl (by decide)
  revert hcurr
  decide

end Vde.Cmd
