import Vde.Proofs.VdehistBounds

/-!
# What libvdehist prints of the switch

`vdehist_mgmt_to_term` collects the lines of the switch in `vlinebuf` and prints their messages. What it prints depends on
the bytes alone, as long as each line and the two bytes it gets fit into `vlinebuf`, no call begins with a read that
fails, and the list of the commands is there: `vdehist_create_commandlist` reads the same descriptor.
-/

namespace Vde.Hist

open List

/-! ## Lines -/

def Write.text : Write → List UInt8
  | .term bytes => bytes
  | .mgmt _ => []

/-- A line without its newline: whether data goes on behind it, and what is printed of it. -/
def lineText (vindata : Bool) (line : List UInt8) : Bool × List UInt8 :=
  if vindata then
    if [46, 13].isPrefixOf (line ++ [13, 10]) then (false, []) else (true, line ++ [13, 10])
  else
    let output := messageOutput (messageIn (line ++ [13, 10, 0]))
    (output.1, output.2.flatMap Write.text)

lemma fourDigits_append {s : List UInt8} (hzero : 0 ∈ s) (rest : List UInt8) : fourDigits (s ++ rest) = fourDigits s := by
  have hno : isDigit 0 = false := rfl
  rcases s with _ | ⟨a, _ | ⟨b, _ | ⟨c, _ | ⟨d, s⟩⟩⟩⟩
  · cases hzero
  · simp only [mem_cons, not_mem_nil, or_false] at hzero
    simp [fourDigits, ← hzero, hno]
  · simp only [mem_cons, not_mem_nil, or_false] at hzero
    rcases hzero with h | h <;> simp [fourDigits, ← h, hno]
  · simp only [mem_cons, not_mem_nil, or_false] at hzero
    rcases hzero with h | h | h <;> simp [fourDigits, ← h, hno]
  · rfl

lemma messageIn_append {s : List UInt8} (hzero : 0 ∈ s) (rest : List UInt8) :
    messageIn (s ++ rest) = messageIn s ++ rest := by
  induction s with
  | nil => cases hzero
  | cons c s ih =>
    have hfour := fourDigits_append hzero rest
    rw [cons_append] at hfour ⊢
    rw [messageIn, messageIn, hfour]
    by_cases hgo : c ≠ 0 ∧ fourDigits (c :: s) = false
    · have hs : 0 ∈ s := (mem_cons.mp hzero).resolve_left fun h => hgo.1 h.symm
      rw [if_pos hgo, if_pos hgo, ih hs]
    rw [if_neg hgo, if_neg hgo]
    rfl

lemma messageIn_stops {s : List UInt8} (hzero : 0 ∈ s) :
    messageIn s <:+ s ∧ ((∃ rest, messageIn s = 0 :: rest) ∨ fourDigits (messageIn s) = true) := by
  induction s with
  | nil => cases hzero
  | cons c s ih =>
    rw [messageIn]
    by_cases hgo : c ≠ 0 ∧ fourDigits (c :: s) = false
    · have hs : 0 ∈ s := (mem_cons.mp hzero).resolve_left fun h => hgo.1 h.symm
      rw [if_pos hgo]
      exact ⟨(ih hs).1.trans (suffix_cons c s), (ih hs).2⟩
    rw [if_neg hgo]
    refine ⟨suffix_rfl, ?_⟩
    by_cases hc : c = 0
    · exact .inl ⟨s, hc ▸ rfl⟩
    · exact .inr (Bool.not_eq_false _ ▸ fun hfalse => hgo ⟨hc, hfalse⟩)

lemma digits_in_front {line message : List UInt8} (hsuffix : message <:+ line ++ [13, 10, 0])
    (hfour : fourDigits message = true) : ∃ a b c d more, message = a :: b :: c :: d :: (more ++ [13, 10, 0]) := by
  have hno : isDigit 13 = false := rfl
  have hend : [13, 10, 0] <:+ message ∨ message <:+ [13, 10, 0] :=
    suffix_or_suffix_of_suffix (suffix_append _ _) hsuffix
  cases hend with
  | inr hshort =>
    have hthird : message.getD 3 0 = 0 := by
      rw [getD_eq_getElem?_getD, getElem?_eq_none (show message.length ≤ 3 from hshort.length_le)]
      rfl
    rw [fourDigits, hthird, Bool.and_eq_true] at hfour
    exact absurd hfour.2 (by decide)
  | inl hlong =>
    obtain ⟨w, rfl⟩ := hlong
    rcases w with _ | ⟨a, _ | ⟨b, _ | ⟨c, _ | ⟨d, w⟩⟩⟩⟩
    · simp [fourDigits, hno] at hfour
    · simp [fourDigits, hno] at hfour
    · simp [fourDigits, hno] at hfour
    · simp [fourDigits, hno] at hfour
    · exact ⟨a, b, c, d, w, rfl⟩

lemma cString_append {s : List UInt8} (hzero : 0 ∈ s) (rest : List UInt8) : cString (s ++ rest) = cString s := by
  unfold cString
  induction s with
  | nil => cases hzero
  | cons c s ih =>
    rw [cons_append, takeWhile_cons, takeWhile_cons]
    by_cases hc : c = 0
    · rw [hc]
      rfl
    · rw [ih ((mem_cons.mp hzero).resolve_left fun h => hc h.symm)]

lemma messageOutput_zero (rest : List UInt8) : messageOutput (0 :: rest) = (false, []) := by
  unfold messageOutput
  rw [if_neg (show ¬([48, 48, 48, 48] : List UInt8).isPrefixOf (0 :: rest) = true from Bool.false_ne_true)]
  split
  · rfl
  · rfl

lemma messageOutput_append (line rest : List UInt8) :
    messageOutput (messageIn (line ++ [13, 10, 0] ++ rest)) = messageOutput (messageIn (line ++ [13, 10, 0])) := by
  have hzero : 0 ∈ line ++ [13, 10, 0] := mem_append_right line (by decide)
  obtain ⟨hsuffix, hstop⟩ := messageIn_stops hzero
  rw [messageIn_append hzero]
  cases hstop with
  | inl hend =>
    obtain ⟨more, hmore⟩ := hend
    rw [hmore, cons_append, messageOutput_zero, messageOutput_zero]
  | inr hfour =>
    obtain ⟨a, b, c, d, more, hmore⟩ := digits_in_front hsuffix hfour
    have hlen : 1 ≤ (more ++ [13, 10, 0]).length := by
      rw [length_append]
      exact Nat.le_add_left 1 (more.length + 2)
    have htext : cString ((more ++ [13, 10, 0] ++ rest).drop 1) = cString ((more ++ [13, 10, 0]).drop 1) := by
      rw [drop_append_of_le_length hlen, cString_append]
      cases more with
      | nil => decide
      | cons e more => exact mem_append_right more (by decide)
    rw [hmore]
    change (if _ then _ else if _ then if _ then (false, [Write.term (cString ((more ++ [13, 10, 0] ++ rest).drop 1))])
      else if _ then (false, [.term dbgText, .term (cString ((more ++ [13, 10, 0] ++ rest).drop 1))]) else _ else _) = _
    rw [htext]
    rfl

/-! ## Bytes -/

/-- Whether data is printed, and the line up to now. -/
abbrev Screen := Bool × List UInt8

def screen : Machine Screen UInt8 where
  enabled _ _ := True
  step s c := if c = 10 then ((lineText s.1 s.2).1, []) else (s.1, s.2 ++ [c])

def screenText (s : Screen) (c : UInt8) : List UInt8 := if c = 10 then (lineText s.1 s.2).2 else []

def streamText : Screen → List UInt8 → List UInt8
  | _, [] => []
  | s, c :: cs => screenText s c ++ streamText (screen.step s c) cs

/-- The byte, and at the end of a line the two that follow it, are inside of `vlinebuf`. -/
def Fits (s : Screen) (c : UInt8) : Prop := if c = 10 then s.2.length + 2 ≤ BUFSIZE else s.2.length ≤ BUFSIZE

lemma streamText_append (s : Screen) (cs cs' : List UInt8) :
    streamText s (cs ++ cs') = streamText s cs ++ streamText (screen.run s cs) cs' := by
  induction cs generalizing s with
  | nil => rfl
  | cons c cs ih =>
    rw [cons_append, streamText, streamText, ih, append_assoc]
    rfl

structure Holds (m : MgmtStat) (s : Screen) : Prop where
  vindata : m.vindata = s.1
  size : m.vlinebuf.size = BUFSIZE + 1
  line : readBytes m.vlinebuf.elems 0 s.2.length = s.2
  index : m.vbufindex = s.2.length
  fault : m.fault = false

variable {m : MgmtStat} {s : Screen} {c : UInt8}

def MgmtStat.stored (m : MgmtStat) (i : Nat) (c : UInt8) : MgmtStat :=
  { m with vlinebuf := ⟨m.vlinebuf.size, Function.update m.vlinebuf.elems i c⟩ }

lemma stored_line (m : MgmtStat) (k : Nat) (c : UInt8) :
    readBytes (m.stored k c).vlinebuf.elems 0 (k + 1) = readBytes m.vlinebuf.elems 0 k ++ [c] := by
  have hold : readBytes (m.stored k c).vlinebuf.elems 0 k = readBytes m.vlinebuf.elems 0 k := by
    refine readBytes_congr fun i hi => ?_
    rw [Nat.zero_add]
    exact Function.update_of_ne (Nat.ne_of_lt hi) _ _
  have hnew : readBytes (m.stored k c).vlinebuf.elems (0 + k) 1 = [c] := by
    rw [Nat.zero_add]
    exact congrArg (fun b => [b]) (Function.update_self _ _ _)
  rw [readBytes_append, hold, hnew]

lemma put_in {i : Nat} (h : i < m.vlinebuf.size) (c : UInt8) : m.put i c = m.stored i c := by
  have hpos : 0 ≤ (i : Int) := Int.natCast_nonneg i
  rw [MgmtStat.put, if_pos hpos, Int.toNat_natCast, Block.store, if_pos h]
  rfl

lemma put_out {i : Nat} (h : m.vlinebuf.size ≤ i) (c : UInt8) : m.put i c = { m with fault := true } := by
  have hpos : 0 ≤ (i : Int) := Int.natCast_nonneg i
  rw [MgmtStat.put, if_pos hpos, Int.toNat_natCast, Block.store, if_neg (Nat.not_lt.mpr h)]

@[simp] lemma put_vbufindex (m : MgmtStat) (i : Int) (c : UInt8) : (m.put i c).vbufindex = m.vbufindex := by
  unfold MgmtStat.put
  split
  · cases m.vlinebuf.store i.toNat c <;> rfl
  · rfl

@[simp] lemma put_size (m : MgmtStat) (i : Int) (c : UInt8) : (m.put i c).vlinebuf.size = m.vlinebuf.size := by
  unfold MgmtStat.put
  split
  · cases hstore : m.vlinebuf.store i.toNat c with
    | none => rfl
    | some vlinebuf =>
      obtain ⟨-, rfl⟩ := Block.store_eq_some.mp hstore
      rfl
  · rfl

lemma put_fault (h : m.fault = true) (i : Int) (c : UInt8) : (m.put i c).fault = true := by
  unfold MgmtStat.put
  split
  · cases m.vlinebuf.store i.toNat c with
    | none => rfl
    | some vlinebuf => exact h
  · rfl

lemma endLine_fault (h : m.fault = true) : m.endLine.fault = true := put_fault (put_fault (put_fault h _ _) _ _) _ _

lemma mgmtByte_fault (h : m.fault = true) (c : UInt8) : (mgmtByte m c).1.fault = true := by
  have hput : { m.put m.vbufindex c with vbufindex := m.vbufindex + 1 }.fault = true := put_fault h _ _
  unfold mgmtByte
  dsimp only
  split_ifs
  · exact endLine_fault hput
  · exact hput

lemma mgmtBytes_fault (h : m.fault = true) (data : List UInt8) : (mgmtBytes m data).1.fault = true := by
  induction data generalizing m with
  | nil => exact h
  | cons c data ih => exact ih (mgmtByte_fault h c)

lemma Holds.byte (h : Holds m s) (hc : c ≠ 10) (hfits : s.2.length ≤ BUFSIZE) :
    Holds (mgmtByte m c).1 (s.1, s.2 ++ [c]) ∧ (mgmtByte m c).2 = [] := by
  have hin : s.2.length < m.vlinebuf.size := by
    rw [h.size]
    omega
  unfold mgmtByte
  dsimp only
  rw [if_neg hc, h.index, put_in hin]
  refine ⟨⟨h.vindata, h.size, ?_, ?_, h.fault⟩, rfl⟩
  · dsimp only
    rw [length_append, length_singleton, stored_line, h.line]
  dsimp only
  rw [length_append, length_singleton]
  rfl

lemma endLine_in {k : Nat} (hindex : m.vbufindex = k + 1) (hfits : k + 2 < m.vlinebuf.size) :
    m.endLine = { ((m.stored k 13).stored (k + 1) 10).stored (k + 2) 0 with vbufindex := k + 2 } := by
  have hfirst : (k : Int) + 1 - 1 = (k : Nat) := by omega
  have hsecond : (k : Int) + 1 = ((k + 1 : Nat) : Int) := rfl
  have hthird : ((k + 1 : Nat) : Int) + 1 = ((k + 2 : Nat) : Int) := rfl
  unfold MgmtStat.endLine
  dsimp only
  rw [put_vbufindex, put_vbufindex, put_vbufindex, hindex, hfirst, put_in (by omega), hsecond,
    put_in (m := m.stored k 13) (show k + 1 < m.vlinebuf.size by omega), hthird,
    put_in (m := (m.stored k 13).stored (k + 1) 10) hfits]
  have hindex' : (((m.stored k 13).stored (k + 1) 10).stored (k + 2) 0).vbufindex + 1 = k + 2 := by
    change m.vbufindex + 1 = k + 2
    omega
  rw [hindex']

lemma endLine_text (m : MgmtStat) (k n : Nat) : ∃ rest,
    readBytes (((m.stored k 13).stored (k + 1) 10).stored (k + 2) 0).vlinebuf.elems 0 (k + 3 + n) =
    readBytes m.vlinebuf.elems 0 k ++ [13, 10, 0] ++ rest := by
  have hline : readBytes (((m.stored k 13).stored (k + 1) 10).stored (k + 2) 0).vlinebuf.elems 0 (k + 3) =
      readBytes m.vlinebuf.elems 0 k ++ [13, 10, 0] := by
    rw [stored_line, stored_line, stored_line, append_assoc, append_assoc]
    rfl
  refine ⟨readBytes (((m.stored k 13).stored (k + 1) 10).stored (k + 2) 0).vlinebuf.elems (0 + (k + 3)) n, ?_⟩
  rw [readBytes_append, hline]

lemma printLine_text {line rest : List UInt8}
    (htext : readBytes m.vlinebuf.elems 0 m.vlinebuf.size = line ++ [13, 10, 0] ++ rest)
    (hindex : m.vbufindex = line.length + 2) :
    m.printLine.1 = { m with vindata := (lineText m.vindata line).1, vbufindex := 0 } ∧
      m.printLine.2.flatMap Write.text = (lineText m.vindata line).2 := by
  have hdot : [46, 13].isPrefixOf (line ++ [13, 10, 0] ++ rest) = [46, 13].isPrefixOf (line ++ [13, 10]) := by
    rcases line with _ | ⟨a, _ | ⟨b, line⟩⟩ <;> rfl
  have htake : (line ++ [13, 10, 0] ++ rest).take m.vbufindex.toNat = line ++ [13, 10] := by
    have hlen : m.vbufindex.toNat = (line ++ [13, 10]).length := by
      rw [hindex, length_append]
      rfl
    have hsplit : line ++ [13, 10, 0] ++ rest = line ++ [13, 10] ++ (0 :: rest) := by
      rw [append_assoc, append_assoc]
      rfl
    rw [hlen, hsplit, take_left]
  unfold MgmtStat.printLine lineText
  dsimp only
  rw [htext, hdot, htake, messageOutput_append]
  cases hdata : m.vindata with
  | true =>
    rw [if_pos rfl, if_pos rfl]
    by_cases hend : [46, 13].isPrefixOf (line ++ [13, 10]) = true
    · rw [if_pos hend, if_pos hend]
      exact ⟨rfl, rfl⟩
    rw [if_neg hend, if_neg hend]
    exact ⟨rfl, append_nil _⟩
  | false =>
    rw [if_neg Bool.false_ne_true, if_neg Bool.false_ne_true]
    exact ⟨rfl, rfl⟩

lemma Holds.newline (h : Holds m s) (hfits : s.2.length + 2 ≤ BUFSIZE) :
    Holds (mgmtByte m 10).1 (screen.step s 10) ∧ (mgmtByte m 10).2.flatMap Write.text = screenText s 10 := by
  have hsize := h.size
  obtain ⟨m1, hm1⟩ : ∃ m1, m1 = { m.stored s.2.length 10 with vbufindex := m.vbufindex + 1 } := ⟨_, rfl⟩
  have hbyte : mgmtByte m 10 = m1.endLine.printLine := by
    unfold mgmtByte
    dsimp only
    rw [if_pos rfl, h.index, put_in (by omega), hm1, h.index]
  have hindex : m1.vbufindex = s.2.length + 1 := by
    rw [hm1, h.index]
  have hsize1 : m1.vlinebuf.size = BUFSIZE + 1 := by
    rw [hm1]
    exact hsize
  have hline : readBytes m1.vlinebuf.elems 0 s.2.length = s.2 := by
    have hold := readBytes_take m1.vlinebuf.elems 0 (Nat.le_succ s.2.length)
    rw [← hold, hm1, stored_line, h.line]
    exact take_left
  obtain ⟨rest, hrest⟩ := endLine_text m1 s.2.length (BUFSIZE - 2 - s.2.length)
  have htotal : s.2.length + 3 + (BUFSIZE - 2 - s.2.length) = m1.vlinebuf.size := by omega
  rw [htotal, hline] at hrest
  have hend := endLine_in hindex (by omega)
  obtain ⟨m2, hm2⟩ : ∃ m2, m2 = m1.endLine := ⟨_, rfl⟩
  have htext : readBytes m2.vlinebuf.elems 0 m2.vlinebuf.size = s.2 ++ [13, 10, 0] ++ rest := by
    rw [hm2, hend]
    exact hrest
  have hindex2 : m2.vbufindex = s.2.length + 2 := by
    rw [hm2, hend]
  have hdata : m2.vindata = s.1 := by
    rw [hm2, hend, ← h.vindata, hm1]
    rfl
  obtain ⟨hstate, hout⟩ := printLine_text htext hindex2
  rw [hbyte, ← hm2]
  constructor
  · rw [hstate]
    refine ⟨?_, ?_, rfl, rfl, ?_⟩
    · dsimp only
      rw [hdata]
      rfl
    · dsimp only
      rw [hm2, hend]
      exact hsize1
    dsimp only
    rw [hm2, hend, ← h.fault, hm1]
    rfl
  rw [hout, hdata]
  rfl

lemma endLine_out {k : Nat} (hindex : m.vbufindex = k + 1) (hout : m.vlinebuf.size ≤ k + 2) : m.endLine.fault = true := by
  have hthird : (k : Int) + 1 + 1 = ((k + 2 : Nat) : Int) := rfl
  unfold MgmtStat.endLine
  dsimp only
  rw [put_vbufindex, put_vbufindex, put_vbufindex, hindex, hthird, put_out]
  rw [put_size, put_size]
  exact hout

lemma Holds.step (h : Holds m s) (hfits : Fits s c) :
    Holds (mgmtByte m c).1 (screen.step s c) ∧ (mgmtByte m c).2.flatMap Write.text = screenText s c := by
  unfold Fits at hfits
  by_cases hc : c = 10
  · rw [if_pos hc] at hfits
    rw [hc]
    exact h.newline hfits
  rw [if_neg hc] at hfits
  obtain ⟨hnext, hout⟩ := h.byte hc hfits
  unfold screenText
  rw [hout, if_neg hc]
  refine ⟨?_, rfl⟩
  change Holds _ (if c = 10 then _ else _)
  rwa [if_neg hc]

lemma Holds.out (h : Holds m s) (hfits : ¬Fits s c) : (mgmtByte m c).1.fault = true := by
  have hsize := h.size
  unfold Fits at hfits
  unfold mgmtByte
  dsimp only
  by_cases hc : c = 10
  · rw [if_pos hc] at hfits ⊢
    have hindex : m.vbufindex + 1 = s.2.length + 1 := by rw [h.index]
    refine endLine_out (k := s.2.length) hindex ?_
    change (m.put m.vbufindex c).vlinebuf.size ≤ _
    rw [put_size]
    omega
  rw [if_neg hc] at hfits ⊢
  rw [h.index, put_out (by omega)]

/-! ## Calls -/

lemma Holds.bytes (h : Holds m s) (data : List UInt8) (hfits : screen.Along Fits s data) :
    Holds (mgmtBytes m data).1 (screen.run s data) ∧ (mgmtBytes m data).2.flatMap Write.text = streamText s data := by
  induction data generalizing m s with
  | nil => exact ⟨h, rfl⟩
  | cons c data ih =>
    obtain ⟨hnext, hout⟩ := h.step hfits.1
    obtain ⟨hlast, hrest⟩ := ih hnext hfits.2
    refine ⟨hlast, ?_⟩
    rw [mgmtBytes, flatMap_append, hout, hrest]
    rfl

lemma Holds.bytes_out (h : Holds m s) (data : List UInt8) (hfits : ¬screen.Along Fits s data) :
    (mgmtBytes m data).1.fault = true := by
  induction data generalizing m s with
  | nil => exact absurd trivial hfits
  | cons c data ih =>
    by_cases hc : Fits s c
    · exact ih (h.step hc).1 fun hrest => hfits ⟨hc, hrest⟩
    · exact mgmtBytes_fault (h.out hc) data

lemma mgmtBytes_append (m : MgmtStat) (data data' : List UInt8) :
    mgmtBytes m (data ++ data') =
      ((mgmtBytes (mgmtBytes m data).1 data').1, (mgmtBytes m data).2 ++ (mgmtBytes (mgmtBytes m data).1 data').2) := by
  induction data generalizing m with
  | nil => rfl
  | cons c data ih =>
    rw [cons_append, mgmtBytes, ih, mgmtBytes, append_assoc]

lemma mgmtReads_eq (m : MgmtStat) (reads : List (List UInt8)) : mgmtReads m reads = mgmtBytes m reads.flatten := by
  induction reads generalizing m with
  | nil => rfl
  | cons data reads ih => rw [mgmtReads, ih, flatten_cons, mgmtBytes_append]

def MgmtCall.heard (call : MgmtCall) : List UInt8 := if call.st.mgmtfd ≠ 0 then call.reads.flatten else []

/-- All bytes that a call reads from the switch; with `mgmtfd` 0 there is none. -/
def MgmtCall.stream (call : MgmtCall) : List UInt8 :=
  if call.st.mgmtfd ≠ 0 then call.reads.flatten ++ call.listReads.flatten else []

def MgmtCall.Starts (call : MgmtCall) : Prop := call.st.mgmtfd ≠ 0 → 0 ≤ call.first

/-- The list of the commands is there, or there is no switch to get it from. -/
def HistStat.Listed (st : HistStat) : Prop := st.commandlist ≠ none ∨ st.mgmtfd ≤ 0

/-- Reads return at most `BUFSIZE` bytes, and `vdehist_create_commandlist` has made just the reads that are its own. -/
structure MgmtCall.WellFormed (call : MgmtCall) : Prop where
  reads : ∀ data ∈ call.reads, data ≠ [] ∧ data.length ≤ BUFSIZE
  last : call.last = 0 ∨ call.last = -1
  listReads : ∀ data ∈ call.listReads, data ≠ [] ∧ data.length ≤ BUFSIZE
  taken : if call.st.MakesList then (createCommandlist call.listReads).2 = [] else call.listReads = []

def mgmtMachine (env : HistEnv) : Machine MgmtStat MgmtCall where
  enabled _ call := call.WellFormed
  step m call := (vdehistMgmtToTerm env m call).2.1

def callText (env : HistEnv) (m : MgmtStat) (call : MgmtCall) : List UInt8 :=
  ((vdehistMgmtToTerm env m call).2.2.tail.dropLast).flatMap Write.text

def runText (env : HistEnv) : MgmtStat → List MgmtCall → List UInt8
  | _, [] => []
  | m, call :: calls => callText env m call ++ runText env ((mgmtMachine env).step m call) calls

/-- Nothing was written outside of `buf` and `vlinebuf`. -/
structure Inside (m : MgmtStat) : Prop where
  fault : m.fault = false
  index : 0 ≤ m.vbufindex

/-- Calls from here that get the same bytes write the same, however the bytes are split into reads. -/
def SplitRight (env : HistEnv) (m : MgmtStat) (st : HistStat) : Prop :=
  ∀ call call' : MgmtCall, call.WellFormed → call'.WellFormed → call.Starts → call'.Starts → call.st = st →
    call'.st = st → call.stream = call'.stream → (vdehistMgmtToTerm env m call).2.2 = (vdehistMgmtToTerm env m call').2.2

variable {env : HistEnv} {call : MgmtCall}

lemma written_eq (env : HistEnv) (m : MgmtStat) (call : MgmtCall) : (vdehistMgmtToTerm env m call).2.2 =
    eraseLine env call.st true :: (call.loops m).2 ++ (if call.st.MakesList then [.mgmt helpText] else []) ++
      [redrawLine env call.st true] := by
  unfold vdehistMgmtToTerm
  dsimp only
  split <;> rfl

lemma callText_eq (env : HistEnv) (m : MgmtStat) (call : MgmtCall) :
    callText env m call = (call.loops m).2.flatMap Write.text := by
  unfold callText
  rw [written_eq, cons_append, cons_append, tail_cons, dropLast_concat, flatMap_append]
  split
  · exact append_nil _
  · exact append_nil _

lemma MgmtCall.WellFormed.stream_eq (h : call.WellFormed) (hlisted : call.st.Listed) : call.stream = call.heard := by
  unfold MgmtCall.stream MgmtCall.heard
  by_cases hfd : call.st.mgmtfd ≠ 0
  · have hno : ¬call.st.MakesList := fun hmakes => hlisted.elim (fun hsome => hsome hmakes.1) (by omega)
    have hnone := h.taken
    rw [if_neg hno] at hnone
    rw [if_pos hfd, if_pos hfd, hnone, flatten_nil, append_nil]
  · rw [if_neg hfd, if_neg hfd]

lemma MgmtCall.WellFormed.first_lt (h : call.WellFormed) : call.first < BUFSIZE + 1 := by
  unfold MgmtCall.first
  cases hreads : call.reads with
  | nil =>
    have hsize : (0 : Int) < BUFSIZE + 1 := by decide
    have hlast := h.last
    dsimp only
    omega
  | cons data reads =>
    have hlen := (h.reads data (hreads ▸ mem_cons_self)).2
    dsimp only
    omega

lemma loops_eq (h : call.WellFormed) (hstarts : call.Starts) (m : MgmtStat) : call.loops m = mgmtBytes m call.heard := by
  unfold MgmtCall.loops MgmtCall.heard
  by_cases hfd : call.st.mgmtfd ≠ 0
  · rw [if_pos hfd, if_pos hfd, MgmtStat.zeroBuf, if_pos ⟨hstarts hfd, h.first_lt⟩, mgmtReads_eq]
  rw [if_neg hfd, if_neg hfd]
  rfl

lemma splitRight {st : HistStat} (hlisted : st.Listed) (env : HistEnv) (m : MgmtStat) : SplitRight env m st := by
  rintro call call' hwf hwf' hstarts hstarts' rfl hst hstream
  rw [hwf.stream_eq hlisted, hwf'.stream_eq (hst ▸ hlisted)] at hstream
  rw [written_eq, written_eq, loops_eq hwf hstarts, loops_eq hwf' hstarts', hst, hstream]

/-! ### Two readers -/

def MgmtStat.flag (m : MgmtStat) (fault : Bool) : MgmtStat := { m with fault := fault }

lemma flag_vbufindex (m : MgmtStat) (b : Bool) : (m.flag b).vbufindex = m.vbufindex := rfl

lemma put_flag (m : MgmtStat) (b : Bool) (i : Int) (c : UInt8) : ∃ b', (m.flag b).put i c = (m.put i c).flag b' := by
  unfold MgmtStat.put
  split
  · dsimp only [MgmtStat.flag]
    cases m.vlinebuf.store i.toNat c with
    | none => exact ⟨_, rfl⟩
    | some vlinebuf => exact ⟨_, rfl⟩
  · exact ⟨_, rfl⟩

lemma endLine_flag (m : MgmtStat) (b : Bool) : ∃ b', (m.flag b).endLine = m.endLine.flag b' := by
  obtain ⟨b₁, h₁⟩ := put_flag m b (m.vbufindex - 1) 13
  obtain ⟨b₂, h₂⟩ := put_flag (m.put (m.vbufindex - 1) 13) b₁ m.vbufindex 10
  obtain ⟨b₃, h₃⟩ := put_flag ((m.put (m.vbufindex - 1) 13).put m.vbufindex 10) b₂ (m.vbufindex + 1) 0
  refine ⟨b₃, ?_⟩
  unfold MgmtStat.endLine
  simp only [put_vbufindex, flag_vbufindex, h₁, h₂, h₃]
  rfl

/-- What is written does not depend on whether something was written outside before. -/
lemma mgmtByte_flag (m : MgmtStat) (b : Bool) (c : UInt8) :
    ∃ b', mgmtByte (m.flag b) c = ((mgmtByte m c).1.flag b', (mgmtByte m c).2) := by
  obtain ⟨b₁, h₁⟩ := put_flag m b m.vbufindex c
  have hput : { (m.flag b).put (m.flag b).vbufindex c with vbufindex := (m.flag b).vbufindex + 1 } =
      ({ m.put m.vbufindex c with vbufindex := m.vbufindex + 1 } : MgmtStat).flag b₁ := by
    change { (m.flag b).put m.vbufindex c with vbufindex := m.vbufindex + 1 } = _
    rw [h₁]
    rfl
  unfold mgmtByte
  dsimp only
  rw [hput]
  by_cases hc : c = 10
  · obtain ⟨b₂, h₂⟩ := endLine_flag { m.put m.vbufindex c with vbufindex := m.vbufindex + 1 } b₁
    rw [if_pos hc, if_pos hc, h₂]
    exact ⟨b₂, rfl⟩
  rw [if_neg hc, if_neg hc]
  exact ⟨b₁, rfl⟩

lemma mgmtBytes_flag (m : MgmtStat) (b : Bool) (data : List UInt8) :
    (mgmtBytes (m.flag b) data).2 = (mgmtBytes m data).2 := by
  induction data generalizing m b with
  | nil => rfl
  | cons c data ih =>
    obtain ⟨b', hbyte⟩ := mgmtByte_flag m b c
    rw [mgmtBytes, mgmtBytes, hbyte, ih]

/-- After a newline the line is empty, also when the one before was too long. -/
lemma holds_newline (m : MgmtStat) (hsize : m.vlinebuf.size = BUFSIZE + 1) :
    Holds ((mgmtByte m 10).1.flag false) ((mgmtByte m 10).1.vindata, []) where
  vindata := rfl
  size := by
    change (MgmtStat.put _ _ _).vlinebuf.size = _
    rw [put_size, put_size, put_size]
    change (MgmtStat.put _ _ _).vlinebuf.size = _
    rw [put_size, hsize]
  line := rfl
  index := rfl
  fault := rfl

lemma along_fits_short (s : Screen) (data : List UInt8) (h : s.2.length + data.length + 1 ≤ BUFSIZE) :
    screen.Along Fits s data := by
  induction data generalizing s with
  | nil => trivial
  | cons c data ih =>
    rw [length_cons] at h
    refine ⟨?_, ih _ ?_⟩
    · unfold Fits
      split <;> omega
    change (if c = 10 then _ else _ : Screen).2.length + _ + 1 ≤ _
    split
    · rw [length_nil]
      omega
    rw [length_append, length_singleton]
    omega

/-- The end of data, and then a message without its newline. -/
def messageStart : List UInt8 := [46, 10, 49, 48, 48, 48, 32, 75]

lemma message_printed (hsize : m.vlinebuf.size = BUFSIZE + 1) :
    (mgmtBytes m (10 :: messageStart ++ [10])).2 ≠ (mgmtBytes m (10 :: messageStart)).2 := by
  intro hsame
  rw [cons_append, mgmtBytes, mgmtBytes] at hsame
  have hrest := append_cancel_left hsame
  rw [← mgmtBytes_flag _ false, ← mgmtBytes_flag (mgmtByte m 10).1 false messageStart] at hrest
  have hholds := holds_newline m hsize
  have hlong : ([] : List UInt8).length + (messageStart ++ [10]).length + 1 ≤ BUFSIZE := by decide
  have hshort : ([] : List UInt8).length + messageStart.length + 1 ≤ BUFSIZE := by decide
  have htext := congrArg (flatMap Write.text) hrest
  rw [(hholds.bytes _ (along_fits_short _ _ hlong)).2, (hholds.bytes _ (along_fits_short _ _ hshort)).2] at htext
  revert htext
  cases (mgmtByte m 10).1.vindata with
  | true => decide
  | false => decide

/-- Without the list of the commands the newline of a message may go to `vdehist_create_commandlist`, and then the message
is not printed. -/
lemma not_splitRight {st : HistStat} (hlisted : ¬st.Listed) (env : HistEnv) (hsize : m.vlinebuf.size = BUFSIZE + 1) :
    ¬SplitRight env m st := by
  intro hsplit
  obtain ⟨hnone, hpos⟩ : st.commandlist = none ∧ 0 < st.mgmtfd := by
    rw [HistStat.Listed, not_or, not_not, Int.not_le] at hlisted
    exact hlisted
  have hfd : st.mgmtfd ≠ 0 := by omega
  have hmakes : st.MakesList := ⟨hnone, by omega⟩
  have hcall : ∀ data listReads, data ≠ [] → data.length ≤ BUFSIZE →
      (∀ data ∈ listReads, data ≠ [] ∧ data.length ≤ BUFSIZE) → (createCommandlist listReads).2 = [] →
      (⟨st, [data], -1, listReads⟩ : MgmtCall).WellFormed ∧ (⟨st, [data], -1, listReads⟩ : MgmtCall).Starts := by
    intro data listReads hne hlen hlist htaken
    refine ⟨⟨?_, .inr rfl, hlist, ?_⟩, fun _ => Int.natCast_nonneg _⟩
    · intro data' hdata'
      rw [mem_singleton.mp hdata']
      exact ⟨hne, hlen⟩
    rw [if_pos hmakes]
    exact htaken
  obtain ⟨hwhole, hstarts⟩ := hcall (10 :: messageStart ++ [10]) [] (by decide) (by decide) (by decide) rfl
  obtain ⟨hcut, hstarts'⟩ := hcall (10 :: messageStart) [[10]] (by decide) (by decide) (by decide) rfl
  have hsame := hsplit _ _ hwhole hcut hstarts hstarts' rfl rfl
    (by rw [MgmtCall.stream, MgmtCall.stream, if_pos hfd, if_pos hfd]; rfl)
  rw [written_eq, written_eq, loops_eq hwhole hstarts, loops_eq hcut hstarts', MgmtCall.heard, MgmtCall.heard,
    if_pos hfd, if_pos hfd] at hsame
  have hloops := (cons.inj (append_cancel_right (append_cancel_right hsame))).2
  exact message_printed hsize hloops

/-! ### Every run -/

lemma Holds.callStep (h : Holds m s) (env : HistEnv) (hwf : call.WellFormed) (hstarts : call.Starts)
    (hfits : screen.Along Fits s call.heard) :
    Holds ((mgmtMachine env).step m call) (screen.run s call.heard) ∧ callText env m call = streamText s call.heard := by
  rw [callText_eq]
  change Holds (call.loops m).1 _ ∧ _
  rw [loops_eq hwf hstarts]
  exact h.bytes call.heard hfits

lemma Holds.call_out (h : Holds m s) (env : HistEnv) (hwf : call.WellFormed)
    (hbad : ¬(call.Starts ∧ screen.Along Fits s call.heard)) : ((mgmtMachine env).step m call).fault = true := by
  change (call.loops m).1.fault = true
  by_cases hstarts : call.Starts
  · rw [loops_eq hwf hstarts]
    exact h.bytes_out call.heard fun hfits => hbad ⟨hstarts, hfits⟩
  have hfd : call.st.mgmtfd ≠ 0 := by
    by_contra hno
    exact hstarts fun hyes => absurd hno hyes
  have hneg : ¬(0 ≤ call.first ∧ call.first < BUFSIZE + 1) := fun hin => hstarts fun _ => hin.1
  unfold MgmtCall.loops
  rw [if_pos hfd, MgmtStat.zeroBuf, if_neg hneg, mgmtReads_eq]
  exact mgmtBytes_fault rfl _

lemma Holds.inside (h : Holds m s) : Inside m := by
  refine ⟨h.fault, ?_⟩
  rw [h.index]
  exact Int.natCast_nonneg _

lemma Holds.run_iff (h : Holds m s) (calls : List MgmtCall)
    (hwf : (mgmtMachine env).Along (mgmtMachine env).enabled m calls) :
    ((mgmtMachine env).Always Inside m calls ∧ runText env m calls = streamText s (calls.flatMap MgmtCall.stream) ∧
        (mgmtMachine env).Along (fun m call => SplitRight env m call.st) m calls) ↔
      (∀ call ∈ calls, call.Starts ∧ call.st.Listed) ∧ screen.Along Fits s (calls.flatMap MgmtCall.stream) := by
  induction calls generalizing m s with
  | nil => exact ⟨fun _ => ⟨fun call hno => absurd hno not_mem_nil, trivial⟩, fun _ => ⟨h.inside, rfl, trivial⟩⟩
  | cons call calls ih =>
    obtain ⟨hfirst, hrest⟩ := hwf
    rw [flatMap_cons]
    constructor
    · rintro ⟨⟨-, hinside⟩, htext, hhere, hsplit⟩
      have hlisted : call.st.Listed := by
        by_contra hnot
        exact not_splitRight hnot env h.size hhere
      rw [hfirst.stream_eq hlisted] at htext ⊢
      by_cases hok : call.Starts ∧ screen.Along Fits s call.heard
      · obtain ⟨hstarts, hfits⟩ := hok
        obtain ⟨hnext, hcall⟩ := h.callStep env hfirst hstarts hfits
        rw [runText, streamText_append, hcall, append_cancel_left_eq] at htext
        obtain ⟨hall, hmore⟩ := (ih hnext hrest).mp ⟨hinside, htext, hsplit⟩
        refine ⟨fun c hc => ?_, hfits.append hmore⟩
        cases mem_cons.mp hc with
        | inl hhead => exact hhead ▸ ⟨hstarts, hlisted⟩
        | inr htail => exact hall c htail
      have hfault := h.call_out env hfirst hok
      exact absurd (hfault.symm.trans hinside.head.fault) (by decide)
    rintro ⟨hall, hfits⟩
    obtain ⟨hone, hmore⟩ := hfits.of_append
    obtain ⟨hstarts, hlisted⟩ := hall call mem_cons_self
    rw [hfirst.stream_eq hlisted] at hone hmore ⊢
    obtain ⟨hnext, hcall⟩ := h.callStep env hfirst hstarts hone
    obtain ⟨hinside, htext, hsplit⟩ :=
      (ih hnext hrest).mpr ⟨fun c hc => hall c (mem_cons_of_mem _ hc), hmore⟩
    refine ⟨⟨h.inside, hinside⟩, ?_, splitRight hlisted env m, hsplit⟩
    rw [runText, streamText_append, hcall, htext]

lemma holds_new (fresh : Nat → UInt8) : Holds (mgmtStatNew fresh) (false, []) where
  vindata := rfl
  size := rfl
  line := rfl
  index := rfl
  fault := rfl

/-- In every sequence of calls, with every split of the bytes of the switch into reads: the index is not negative and all
writes are inside of `buf` and `vlinebuf`, what is printed depends on the bytes alone, and what a call writes does not
depend on their split, as long as no call begins with a read that fails or without the list of the commands, and each
line, with its end as it is printed and the zero byte, fits into `vlinebuf`. -/
theorem mgmt_output_iff (env : HistEnv) (fresh : Nat → UInt8) (calls : List MgmtCall)
    (h : (mgmtMachine env).Along (mgmtMachine env).enabled (mgmtStatNew fresh) calls) :
    ((mgmtMachine env).Always Inside (mgmtStatNew fresh) calls ∧
        runText env (mgmtStatNew fresh) calls = streamText (false, []) (calls.flatMap MgmtCall.stream) ∧
        (mgmtMachine env).Along (fun m call => SplitRight env m call.st) (mgmtStatNew fresh) calls) ↔
      (∀ call ∈ calls, call.Starts ∧ call.st.Listed) ∧
        screen.Along Fits (false, []) (calls.flatMap MgmtCall.stream) :=
  (holds_new fresh).run_iff calls h

def twoReads : MgmtCall where
  st := vdehistNew 3 (some [])
  reads := [[49, 48], [48, 48, 32, 79, 75, 10]]
  last := -1
  listReads := []

theorem mgmt_output_iff_twoReads :
    (mgmtMachine plainEnv).Always Inside (mgmtStatNew fun _ => 0) [twoReads, twoReads] ∧
      runText plainEnv (mgmtStatNew fun _ => 0) [twoReads, twoReads] = [79, 75, 13, 10, 79, 75, 13, 10] ∧
      (mgmtMachine plainEnv).Along (fun m call => SplitRight plainEnv m call.st) (mgmtStatNew fun _ => 0)
        [twoReads, twoReads] := by
  have hwf : twoReads.WellFormed := ⟨by decide, .inr rfl, by decide, by decide⟩
  have hok : twoReads.Starts ∧ twoReads.st.Listed := ⟨fun _ => by decide, .inl (by decide)⟩
  exact (mgmt_output_iff plainEnv (fun _ => 0) [twoReads, twoReads] ⟨hwf, hwf, trivial⟩).mpr
    ⟨by simpa using hok, along_fits_short _ _ (by decide)⟩

def noRead : MgmtCall where
  st := vdehistNew 3 (some [])
  reads := []
  last := -1
  listReads := []

theorem zero_in_front_of_buf :
    ¬((mgmtMachine plainEnv).Always Inside (mgmtStatNew fun _ => 0) [noRead] ∧
        runText plainEnv (mgmtStatNew fun _ => 0) [noRead] = streamText (false, []) ([noRead].flatMap MgmtCall.stream) ∧
        (mgmtMachine plainEnv).Along (fun m call => SplitRight plainEnv m call.st) (mgmtStatNew fun _ => 0) [noRead]) := by
  rintro ⟨⟨-, hinside⟩, -⟩
  exact absurd hinside.fault (by decide)

end Vde.Hist
