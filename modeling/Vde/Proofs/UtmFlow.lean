import Vde.Cmdparse
import Vde.Lib.Machine
import Vde.Lib.StableSort

/-!
# The states that a parsing machine goes through

`utm_alloc` sorts the states of a file by their numbers. In a program whose jumps have a target, and whose highest state
does not go on to the one behind it, `utm_run` is always at a state of the program.
-/

namespace Vde.Cmd

open List

/-! ## Loading -/

lemma utmsadd_eq (this : UtmState) (head : List UtmState) : utmsadd this head = insertByKey UtmState.num this head := by
  induction head with
  | nil => rfl
  | cons s rest ih => rw [utmsadd, insertByKey_cons, ih]

lemma addLine_head (utm : Utm) (line : List UInt8) :
    (addLine utm line).head = (stateOf line).elim utm.head fun new => utmsadd new utm.head := by
  unfold addLine
  dsimp only
  by_cases hnum : 0 < atoi (blankskip (cString line))
  · rw [if_pos hnum]
    cases stateOf line with
    | none => rfl
    | some new => rfl
  have hnone : stateOf line = none := if_neg fun h => hnum h.1
  rw [if_neg hnum, hnone]
  by_cases htimeout : timeoutText.isPrefixOf (blankskip (cString line)) = true
  · rw [if_pos htimeout]
    rfl
  rw [if_neg htimeout]
  rfl

lemma addLines_stableSort {lines : List UtmState} {utm : Utm} (h : StableSort UtmState.num lines utm.head)
    (more : List (List UInt8)) :
    StableSort UtmState.num (lines ++ more.filterMap stateOf) (more.foldl addLine utm).head := by
  induction more generalizing lines utm with
  | nil => rwa [filterMap_nil, append_nil]
  | cons line more ih =>
    rw [foldl_cons, filterMap_cons]
    have hhead := addLine_head utm line
    cases hstate : stateOf line with
    | none =>
      rw [hstate] at hhead
      refine ih ?_
      rwa [hhead]
    | some new =>
      rw [hstate] at hhead
      have hnew : StableSort UtmState.num (lines ++ [new]) (addLine utm line).head := by
        rw [hhead, Option.elim_some, utmsadd_eq]
        exact h.insertByKey new
      have hrest := ih hnew
      rwa [append_assoc] at hrest

lemma utmAlloc_stableSort (conf : List UInt8) :
    StableSort UtmState.num ((fgets conf []).filterMap stateOf) (utmAlloc conf).head := by
  have hempty : StableSort UtmState.num [] (⟨TIMEOUT, []⟩ : Utm).head := stableSort_nil UtmState.num
  exact addLines_stableSort hempty (fgets conf [])

/-! ## Lines -/

/-- Digits as characters. -/
def digits (ds : List Nat) : List UInt8 := ds.map fun d => 48 + UInt8.ofNat d

/-- The number that digits stand for. -/
def number (base : Nat) (ds : List Nat) : Nat := ds.foldl (fun n d => n * base + d) 0

lemma digit_char : ∀ d < 10, digitValue (48 + UInt8.ofNat d) = d ∧ isSpace (48 + UInt8.ofNat d) = false ∧
    isBlank (48 + UInt8.ofNat d) = false ∧ inField (48 + UInt8.ofNat d) = true ∧ 48 + UInt8.ofNat d ≠ 43 ∧
    48 + UInt8.ofNat d ≠ 45 := by decide

section Numbers

variable {base : Nat} {ds : List Nat} {rest : List UInt8}

lemma readDigits_digits (hbase : base ≤ 10) (hds : ∀ d ∈ ds, d < base)
    (hrest : base ≤ digitValue (rest.headD 0)) (n : Nat) :
    readDigits base (digits ds ++ rest) n = ds.foldl (fun n d => n * base + d) n := by
  induction ds generalizing n with
  | nil =>
    cases rest with
    | nil => rfl
    | cons c rest => exact if_neg (not_lt.mpr hrest)
  | cons d ds ih =>
    have hd : d < base := hds d mem_cons_self
    have hvalue := (digit_char d (by omega)).1
    rw [digits, map_cons, cons_append, readDigits, hvalue, if_pos hd]
    exact ih (fun d hd => hds d (mem_cons_of_mem _ hd)) _

lemma strtol_digits (hbase : base ≤ 10) (hds : ∀ d ∈ ds, d < base)
    (hrest : base ≤ digitValue (rest.headD 0)) (hne : ds ≠ []) (hsmall : number base ds < 2 ^ 31) : toInt32 (strtol (digits ds ++ rest) base) = number base ds := by
  obtain ⟨d, ds, rfl⟩ := exists_cons_of_ne_nil hne
  have hd := hds d mem_cons_self
  obtain ⟨-, hspace, -, -, hplus, hminus⟩ := digit_char d (by omega)
  have hread := readDigits_digits hbase hds hrest 0
  have hnumber : strtol (digits (d :: ds) ++ rest) base = number base (d :: ds) := by
    rw [digits, map_cons, cons_append] at hread ⊢
    unfold strtol
    rw [dropWhile_cons_of_neg (Bool.eq_false_iff.mp hspace)]
    dsimp only
    split
    · next heq => exact absurd (List.cons.inj heq).1 hminus
    · next heq => exact absurd (List.cons.inj heq).1 hplus
    rw [if_neg fun h => by omega, hread]
    change min ((number base (d :: ds) : Nat) : Int) _ = _
    omega
  rw [hnumber]
  exact toInt32_of_lt (by omega)

end Numbers

/-- A line whose text begins with a number and the name of a command gives a state. -/
lemma stateOf_line {line name rest : List UInt8} {ds : List Nat} {command : Command} (hds : ∀ d ∈ ds, d < 10)
    (hpos : 0 < number 10 ds) (hsmall : number 10 ds < 2 ^ 31) (hname : (name, command) ∈ commandname)
    (hcommand : command ≠ .ERR) (hrest : inField (rest.headD 10) = false)
    (hline : cString line = digits ds ++ 32 :: (name ++ rest)) :
    stateOf line = some ⟨number 10 ds, command, (arguments rest).1, (arguments rest).2⟩ := by
  have hnames : ∀ p ∈ commandname, p.2 ≠ .ERR →
      searchcommand p.1 = p.2 ∧ isBlank (p.1.headD 32) = false ∧ ∀ c ∈ p.1, inField c = true := by decide +kernel
  obtain ⟨hfound, hfirst, hfield⟩ := hnames _ hname hcommand
  have hdigits : ∀ c ∈ digits ds, inField c = true := by
    intro c hc
    obtain ⟨d, hd, rfl⟩ := mem_map.mp hc
    exact (digit_char d (hds d hd)).2.2.2.1
  have hne : ds ≠ [] := by
    rintro rfl
    exact absurd hpos (by decide)
  have hstart : blankskip (digits ds ++ 32 :: (name ++ rest)) = digits ds ++ 32 :: (name ++ rest) := by
    obtain ⟨d, ds, rfl⟩ := exists_cons_of_ne_nil hne
    obtain ⟨-, -, hblank, -⟩ := digit_char d (hds d mem_cons_self)
    exact dropWhile_cons_of_neg (Bool.eq_false_iff.mp hblank)
  have hskip : blankskip (32 :: (name ++ rest)) = name ++ rest := by
    cases name with
    | nil => exact absurd (show isBlank 32 = false from hfirst) (by decide)
    | cons c name => exact dropWhile_cons_of_neg (Bool.eq_false_iff.mp hfirst)
  have htail : rest.takeWhile inField = [] ∧ rest.dropWhile inField = rest := by
    cases rest with
    | nil => exact ⟨rfl, rfl⟩
    | cons c rest =>
      have hc := Bool.eq_false_iff.mp hrest
      exact ⟨takeWhile_cons_of_neg hc, dropWhile_cons_of_neg hc⟩
  have hatoi : atoi (digits ds ++ 32 :: (name ++ rest)) = number 10 ds :=
    strtol_digits le_rfl hds (show 10 ≤ digitValue 32 by decide) hne hsmall
  unfold stateOf
  rw [hline, hstart]
  dsimp only
  rw [hatoi, dropWhile_append_of_pos hdigits, dropWhile_cons_of_neg (by decide), hskip,
    takeWhile_append_of_pos hfield, dropWhile_append_of_pos hfield, htail.1, htail.2, append_nil, hfound]
  exact if_pos ⟨Int.natCast_pos.mpr hpos, hcommand⟩

/-! ## Running -/

/-- The states that go to the state with their `nextnum`, or may do so. -/
def Command.jumps (c : Command) : Prop := c = .IN ∨ c = .IF ∨ c = .GOTO ∨ c = .IFARG

def Command.leaves (c : Command) : Prop := c = .EXIT ∨ c = .EXITRV ∨ c = .GOTO

instance : DecidablePred Command.jumps := fun c => inferInstanceAs (Decidable (c = .IN ∨ c = .IF ∨ c = .GOTO ∨ c = .IFARG))

instance : DecidablePred Command.leaves := fun c => inferInstanceAs (Decidable (c = .EXIT ∨ c = .EXITRV ∨ c = .GOTO))

structure Program (prog : List UtmState) : Prop where
  sorted : prog.Pairwise fun s t => s.num ≤ t.num
  targets : ∀ s ∈ prog, s.command.jumps → ∃ t ∈ prog, t.num = s.nextnum
  top : ∃ s ∈ prog, s.command.leaves ∧ ∀ t ∈ prog, t.num ≤ s.num

def runMachine (prog : List UtmState) : Machine Run Finds where
  enabled r _ := r.ended = none
  step := runStep prog

def AtState (prog : List UtmState) (r : Run) : Prop := r.ended = none → r.status ≠ [] ∧ r.status <:+ prog

def Rest (prog status : List UtmState) : Prop :=
  status <:+ prog ∧ ∃ s ∈ status, s.command.leaves ∧ ∀ t ∈ prog, t.num ≤ s.num

variable {prog status : List UtmState} {r : Run} {s : UtmState} {next : List UtmState}

lemma Rest.ne_nil (h : Rest prog status) : status ≠ [] := by
  obtain ⟨-, s, hs, -⟩ := h
  exact ne_nil_of_mem hs

lemma Program.rest (h : Program prog) : Rest prog prog := ⟨suffix_rfl, h.top⟩

lemma Rest.behind (h : Rest prog (s :: next)) (hgo : ¬s.command.leaves) : Rest prog next := by
  obtain ⟨hsuffix, t, ht, hleaves, htop⟩ := h
  refine ⟨(suffix_cons s next).trans hsuffix, t, ?_, hleaves, htop⟩
  cases mem_cons.mp ht with
  | inl hts => exact absurd (hts ▸ hleaves) hgo
  | inr htnext => exact htnext

lemma mem_sgoto {num : Int} (hsorted : prog.Pairwise fun s t => s.num ≤ t.num) (hs : s ∈ prog)
    (htop : ∀ t ∈ prog, t.num ≤ s.num) (htarget : ∃ t ∈ prog, t.num = num) : s ∈ sgoto prog num := by
  induction prog with
  | nil => exact absurd hs not_mem_nil
  | cons a prog ih =>
    obtain ⟨hfirst, hrest⟩ := pairwise_cons.mp hsorted
    obtain ⟨t, ht, htnum⟩ := htarget
    by_cases ha : a.num = num
    · rw [sgoto, dropWhile_cons_of_neg (by simpa using ha)]
      exact hs
    have htprog : t ∈ prog := (mem_cons.mp ht).resolve_left fun hta => ha (hta ▸ htnum)
    have hsprog : s ∈ prog := by
      refine (mem_cons.mp hs).resolve_left fun hsa => ha ?_
      have hle := hfirst t htprog
      have hge := htop t ht
      rw [hsa] at hge
      omega
    rw [sgoto, dropWhile_cons_of_pos (by simpa using ha)]
    exact ih hrest hsprog (fun t ht => htop t (mem_cons_of_mem a ht)) ⟨t, htprog, htnum⟩

lemma Program.rest_sgoto (h : Program prog) {num : Int} (htarget : ∃ t ∈ prog, t.num = num) :
    Rest prog (sgoto prog num) := by
  obtain ⟨s, hs, hleaves, htop⟩ := h.top
  exact ⟨dropWhile_suffix _, s, mem_sgoto h.sorted hs htop htarget, hleaves, htop⟩

@[simp] lemma put_status (r : Run) (i : Nat) (c : UInt8) : (r.put i c).status = r.status := by
  unfold Run.put
  cases r.linebuf.store i c <;> rfl

lemma grow_status {finds : Finds} {r' : Run} (h : r.grow finds = some r') : r'.status = r.status := by
  unfold Run.grow at h
  split_ifs at h
  · exact Option.some.inj h ▸ rfl
  · exact Option.some.inj h ▸ rfl

inductive GoesTo (prog : List UtmState) (s : UtmState) (next old status : List UtmState) : Prop
  | on (hgo : ¬s.command.leaves) (h : status = next)
  | target (hjump : s.command.jumps) (h : status = sgoto prog s.nextnum)
  | stay (h : status = old)

lemma input_goesTo (hcommand : s.command = .IN) (finds : Finds) (hend : (r.input prog s next finds).ended = none) :
    GoesTo prog s next r.status (r.input prog s next finds).status := by
  have hgo : ¬s.command.leaves := by
    rw [hcommand]
    decide
  unfold Run.input at hend ⊢
  cases hgrow : r.grow finds with
  | none =>
    rw [hgrow] at hend
    cases hend
  | some r' =>
    dsimp only
    cases readchar r'.inbuf finds.poll with
    | mk c inbuf =>
      cases c with
      | none => exact .target (.inl hcommand) rfl
      | some c =>
        dsimp only
        split
        · exact .on hgo rfl
        refine .stay ?_
        simp [grow_status hgrow]

lemma runState_goesTo (prog : List UtmState) (r : Run) (s : UtmState) (next : List UtmState) (finds : Finds)
    (hend : (runState prog r s next finds).ended = none) :
    GoesTo prog s next r.status (runState prog r s next finds).status := by
  have hon {c : Command} (hc : s.command = c) (hgo : ¬c.leaves) : ¬s.command.leaves := by rwa [hc]
  have hjump {c : Command} (hc : s.command = c) (hto : c.jumps) : s.command.jumps := by rwa [hc]
  cases hcommand : s.command with
  | IN =>
    rw [runState, hcommand] at hend ⊢
    exact input_goesTo hcommand finds hend
  | ERR | EXIT | EXITRV =>
    rw [runState, hcommand] at hend
    cases hend
  | THROW | SHIFT | SKIP | RVATOI | OUTTAG =>
    rw [runState, hcommand]
    exact .on (hon hcommand (by decide)) rfl
  | GOTO =>
    rw [runState, hcommand]
    exact .target (hjump hcommand (by decide)) rfl
  | SEND =>
    rw [runState, hcommand]
    dsimp only
    cases sendText r.args s.string with
    | none => exact .on (hon hcommand (by decide)) rfl
    | some text => exact .on (hon hcommand (by decide)) rfl
  | IF =>
    rw [runState, hcommand]
    dsimp only
    split
    · exact .target (hjump hcommand (by decide)) rfl
    · exact .on (hon hcommand (by decide)) rfl
  | IFARG =>
    rw [runState, hcommand]
    dsimp only
    split
    · exact .target (hjump hcommand (by decide)) rfl
    · exact .on (hon hcommand (by decide)) rfl
  | COPY =>
    rw [runState, hcommand] at hend ⊢
    dsimp only at hend ⊢
    split_ifs at hend ⊢
    · exact .on (hon hcommand (by decide)) rfl
    · exact .on (hon hcommand (by decide)) rfl
  | OUTSHIFT =>
    rw [runState, hcommand] at hend ⊢
    dsimp only at hend ⊢
    split_ifs at hend ⊢
    exact .on (hon hcommand (by decide)) rfl

lemma Program.step (h : Program prog) (hrest : Rest prog r.status) (finds : Finds)
    (hend : (runStep prog r finds).ended = none) : Rest prog (runStep prog r finds).status := by
  unfold runStep at hend ⊢
  cases hstatus : r.status with
  | nil => exact absurd hstatus hrest.ne_nil
  | cons s next =>
    rw [hstatus] at hend hrest
    have hs : s ∈ prog := hrest.1.mem mem_cons_self
    cases runState_goesTo prog r s next finds hend with
    | on hgo hnext =>
      rw [hnext]
      exact hrest.behind hgo
    | target hjump hto =>
      rw [hto]
      exact h.rest_sgoto (h.targets s hs hjump)
    | stay hsame =>
      rw [hsame, hstatus]
      exact hrest

/-- `utm_alloc` sorts the states of every file by their numbers, those with the same number in the order of the file.
In every program with a target for each jump and a highest state that does not go on, with every input, all timeouts and
all arguments, the current state is one of the program as long as `utm_run` runs. -/
theorem utm_flow (conf : List UInt8) :
    StableSort UtmState.num ((fgets conf []).filterMap stateOf) (utmAlloc conf).head ∧ ∀ prog, Program prog →
    ∀ (inbuf : UtmBuf) (argv : List (List UInt8)) (found : List Finds),
    (runMachine prog).Along (runMachine prog).enabled (runStart prog inbuf argv) found →
    (runMachine prog).Always (AtState prog) (runStart prog inbuf argv) found := by
  refine ⟨utmAlloc_stableSort conf, fun prog h inbuf argv found hfound => ?_⟩
  refine Machine.Along.always (fun r => r.ended = none → Rest prog r.status) ?_ ?_ (fun _ => h.rest) hfound
  · intro r hinv hend
    exact ⟨(hinv hend).ne_nil, (hinv hend).1⟩
  intro r finds hinv hrunning hend
  exact h.step (hinv hrunning) finds hend

/-- A file with a machine that reads a line, the last state first. -/
def lineConf : List UInt8 :=
  bytes (['9', ' ', 'E', 'X', 'I', 'T', ' ', '-', '1', '\n'] ++
    ['1', ' ', 'I', 'N', ' ', '\'', '\\', 'n', '\'', ' ', '9', '\n'] ++ ['2', ' ', 'G', 'O', 'T', 'O', ' ', '9', '\n'])

def lineProgram : List UtmState := [⟨1, .IN, [10], 9⟩, ⟨2, .GOTO, [], 9⟩, ⟨9, .EXIT, [], -1⟩]

example : (utmAlloc lineConf).head = lineProgram := by decide

lemma lineProgram_program : Program lineProgram where
  sorted := by decide
  targets := by decide
  top := by decide

def newlineRead : Finds where
  poll := .read [10]
  alloc := true
  addr := 0
  fresh := fun _ => 0
  string := 0
  outside := []

def emptyBuf : UtmBuf := ⟨fun _ => 0, 0, 0⟩

theorem utm_flow_line :
    StableSort UtmState.num ((fgets lineConf []).filterMap stateOf) (utmAlloc lineConf).head ∧
      (runMachine lineProgram).Always (AtState lineProgram) (runStart lineProgram emptyBuf [])
        [newlineRead, newlineRead] :=
  ⟨(utm_flow lineConf).1,
    (utm_flow lineConf).2 lineProgram lineProgram_program emptyBuf [] [newlineRead, newlineRead] ⟨rfl, rfl, trivial⟩⟩

end Vde.Cmd
