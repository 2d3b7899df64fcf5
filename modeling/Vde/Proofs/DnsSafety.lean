import Vde.Proofs.DnsPackets

/-!
# Datagrams that are read safely

`decompress_label` checks every step, so a question costs at most the packet. The answer loop
checks nothing: its records have to lie inside the datagram. `_skip_lbl` counts the length byte of
a label neither into `remain`, so the two get out of step at the first name with a label in it that
another record follows. `PacketLies` says which datagrams pass.
-/

namespace Vde

open List Option

variable {buf : List UInt8} {off : Nat}

lemma readByte_inside (h : off < buf.length) : readByte buf off = .ok buf[off] := by
  rw [readByte, getElem?_eq_getElem h]

lemma readByte_outside (h : buf.length ≤ off) : readByte buf off = .error (.outside off) := by
  rw [readByte, getElem?_eq_none h]

def shortAt (buf : List UInt8) (off : Nat) : Nat :=
  (buf.getD off 0).toNat * 256 + (buf.getD (off + 1) 0).toNat

lemma readShort_inside (h : off + 1 < buf.length) : readShort buf off = .ok (shortAt buf off) := by
  have h0 : off < buf.length := by omega
  rw [readShort, readByte_inside h0, ok_bind, readByte_inside h, ok_bind, shortAt]
  simp [h0, h]

lemma readShort_outside (buf : List UInt8) (off : Nat) (h : buf.length ≤ off + 1) :
    ∃ e, readShort buf off = .error e := by
  rw [readShort]
  by_cases h0 : off < buf.length
  · rw [readByte_inside h0, ok_bind, readByte_outside h]
    exact ⟨_, rfl⟩
  rw [readByte_outside (by omega)]
  exact ⟨_, rfl⟩

lemma length_byte (b : UInt8) : (charToUnsigned b = 0 ↔ b = 0) ∧ (63 < charToUnsigned b ↔ b &&& 0xc0 ≠ 0) ∧
    (b &&& 0xc0 = 0 → charToUnsigned b = b.toNat ∧ b.toNat < 64) := by
  have hall : ∀ n < 256, (charToUnsigned (UInt8.ofNat n) = 0 ↔ UInt8.ofNat n = 0) ∧
      (63 < charToUnsigned (UInt8.ofNat n) ↔ UInt8.ofNat n &&& 0xc0 ≠ 0) ∧
      (UInt8.ofNat n &&& 0xc0 = 0 →
        charToUnsigned (UInt8.ofNat n) = (UInt8.ofNat n).toNat ∧ (UInt8.ofNat n).toNat < 64) := by
    decide +kernel
  have h := hall b.toNat b.toNat_lt
  rwa [UInt8.ofNat_toNat] at h

/-- The number of labels of the name at `ptr` and the place behind it, unless it runs out of the
packet. -/
def nameEndLoop (buf : List UInt8) : Nat → Nat → Option (Nat × Nat)
  | 0, _ => none
  | fuel + 1, ptr =>
    match buf[ptr]? with
    | none => none
    | some b =>
      if b = 0 then some (0, ptr + 1)
      else if b &&& 0xc0 ≠ 0 then some (0, ptr + 2)
      else (nameEndLoop buf fuel (ptr + b.toNat + 1)).map (fun r => (r.1 + 1, r.2))

def nameEnd (buf : List UInt8) (ptr : Nat) : Option (Nat × Nat) := nameEndLoop buf (buf.length + 1) ptr

variable {ptr : Nat}

lemma nameEndLoop_outside (fuel : Nat) (h : buf.length ≤ ptr) : nameEndLoop buf fuel ptr = none := by
  cases fuel with
  | zero => rfl
  | succ fuel => rw [nameEndLoop, getElem?_eq_none h]

lemma nameEndLoop_inside (fuel : Nat) (h : ptr < buf.length) :
    nameEndLoop buf (fuel + 1) ptr =
      if buf[ptr] = 0 then some (0, ptr + 1)
      else if buf[ptr] &&& 0xc0 ≠ 0 then some (0, ptr + 2)
      else (nameEndLoop buf fuel (ptr + buf[ptr].toNat + 1)).map (fun r => (r.1 + 1, r.2)) := by
  rw [nameEndLoop, getElem?_eq_getElem h]

variable {n e : Nat}

lemma skipLoop_nameEnd (fuel ptr len j : Nat) (hname : nameEndLoop buf fuel ptr = some (n, e)) (he : e ≤ buf.length)
    (hlen : len + ptr = buf.length + j) (hlt : len < 65536) : ∃ len', skipLoop buf fuel ptr len =
    .ok (some e, len') ∧ len' + e = buf.length + j + n ∧ len' < 65536 := by
  induction fuel generalizing ptr len j n with
  | zero => simp [nameEndLoop] at hname
  | succ fuel ih =>
    have hin : ptr < buf.length := by
      by_contra hout
      rw [nameEndLoop_outside _ (by omega)] at hname
      exact absurd hname (by simp)
    rw [nameEndLoop_inside fuel hin] at hname
    rw [skipLoop, readByte_inside hin, ok_bind]
    by_cases h0 : buf[ptr] = 0
    · rw [if_pos h0, some.injEq, Prod.mk.injEq] at hname
      obtain ⟨rfl, rfl⟩ := hname
      rw [if_pos h0]
      exact ⟨_, rfl, by omega, by omega⟩
    rw [if_neg h0] at hname ⊢
    by_cases hptr : buf[ptr] &&& 0xc0 ≠ 0
    · rw [if_pos hptr, some.injEq, Prod.mk.injEq] at hname
      obtain ⟨rfl, rfl⟩ := hname
      rw [if_neg (by omega), if_pos hptr]
      exact ⟨_, rfl, by omega, by omega⟩
    rw [if_neg hptr, map_eq_some_iff] at hname
    obtain ⟨⟨n', e'⟩, hrest, heq⟩ := hname
    rw [Prod.mk.injEq] at heq
    obtain ⟨rfl, rfl⟩ := heq
    have hbyte := (length_byte buf[ptr]).2.2 (not_not.mp hptr)
    have hnext : ptr + buf[ptr].toNat + 1 < buf.length := by
      by_contra hout
      rw [nameEndLoop_outside _ (by omega)] at hrest
      exact absurd hrest (by simp)
    have hsub : (len + 65536 - buf[ptr].toNat) % 65536 = len - buf[ptr].toNat := by omega
    obtain ⟨len', hskip, hsum, hlt'⟩ := ih (ptr + buf[ptr].toNat + 1) (len - buf[ptr].toNat) (j + 1)
      hrest (by omega) (by omega)
    rw [if_neg (by omega), if_neg hptr]
    dsimp only
    rw [hsub, if_neg (by omega), hskip]
    exact ⟨len', rfl, by omega, hlt'⟩

lemma skipLoop_no_name (fuel ptr len : Nat) {p len' : Nat}
    (hskip : skipLoop buf fuel ptr len = .ok (some p, len')) : ∃ n, nameEndLoop buf fuel ptr = some (n, p) := by
  induction fuel generalizing ptr len with
  | zero => simp [skipLoop] at hskip
  | succ fuel ih =>
    rw [skipLoop] at hskip
    by_cases hin : ptr < buf.length
    · rw [readByte_inside hin, ok_bind] at hskip
      rw [nameEndLoop_inside fuel hin]
      by_cases h0 : buf[ptr] = 0
      · rw [if_pos h0] at hskip ⊢
        simp only [pure_eq_ok, Except.ok.injEq, Prod.mk.injEq, some.injEq] at hskip
        exact ⟨0, by rw [hskip.1]⟩
      rw [if_neg h0] at hskip ⊢
      by_cases h2 : len < 2
      · rw [if_pos h2] at hskip
        simp at hskip
      rw [if_neg h2] at hskip
      by_cases hptr : buf[ptr] &&& 0xc0 ≠ 0
      · rw [if_pos hptr] at hskip ⊢
        simp only [pure_eq_ok, Except.ok.injEq, Prod.mk.injEq, some.injEq] at hskip
        exact ⟨0, by rw [hskip.1]⟩
      rw [if_neg hptr] at hskip ⊢
      dsimp only at hskip
      by_cases h1 : (len + 65536 - buf[ptr].toNat) % 65536 < 1
      · rw [if_pos h1] at hskip
        simp at hskip
      rw [if_neg h1] at hskip
      obtain ⟨n, hn⟩ := ih _ _ hskip
      exact ⟨n + 1, by rw [hn]; rfl⟩
    · rw [readByte_outside (by omega), error_bind] at hskip
      simp at hskip

lemma decompressLoop_inside (fuel ptr followed : Nat) (acc : List UInt8)
    (h : ptr < buf.length) :
    ∃ r, decompressLoop buf fuel ptr followed acc = .ok r ∧
      (∀ d, r = some d → ∀ fuel', buf.length < ptr + fuel' →
        ∃ n e, nameEndLoop buf fuel' ptr = some (n, e) ∧ e ≤ buf.length) := by
  induction fuel generalizing ptr followed acc with
  | zero => exact ⟨none, rfl, by simp⟩
  | succ fuel ih =>
    obtain ⟨hzero, hlarge, hplain⟩ := length_byte buf[ptr]
    rw [decompressLoop, readByte_inside h, ok_bind]
    dsimp only
    by_cases h0 : buf[ptr] = 0
    · rw [if_pos (hzero.mpr h0)]
      refine ⟨_, rfl, ?_⟩
      intro d _ fuel' hfuel
      obtain ⟨f, rfl⟩ : ∃ f, fuel' = f + 1 := ⟨fuel' - 1, by omega⟩
      exact ⟨0, ptr + 1, by rw [nameEndLoop_inside f h, if_pos h0], by omega⟩
    rw [if_neg (fun hz => h0 (hzero.mp hz))]
    by_cases hptr : buf[ptr] &&& 0xc0 ≠ 0
    · rw [if_pos (hlarge.mpr hptr)]
      by_cases hend : (buf.length : Int) - 1 ≤ ptr
      · rw [if_pos hend]
        exact ⟨none, rfl, by simp⟩
      have hnext : ptr + 1 < buf.length := by omega
      -- whatever the pointer leads to, the name itself ends behind its second byte
      have hname : ∀ fuel', buf.length < ptr + fuel' →
          ∃ n e, nameEndLoop buf fuel' ptr = some (n, e) ∧ e ≤ buf.length := by
        intro fuel' hfuel
        obtain ⟨f, rfl⟩ : ∃ f, fuel' = f + 1 := ⟨fuel' - 1, by omega⟩
        exact ⟨0, ptr + 2, by rw [nameEndLoop_inside f h, if_neg h0, if_pos hptr], by omega⟩
      rw [if_neg hend]
      by_cases hloops : 20 < followed
      · rw [if_pos hloops]
        exact ⟨none, rfl, by simp⟩
      rw [if_neg hloops, readByte_inside hnext, ok_bind]
      generalize (charToUnsigned buf[ptr] % 64 * 256 + charToUnsigned buf[ptr + 1]) % 4294967296 =
        offset
      by_cases hbehind : buf.length ≤ offset
      · rw [if_pos hbehind]
        exact ⟨none, rfl, by simp⟩
      rw [if_neg hbehind]
      obtain ⟨r, hr, -⟩ := ih offset (followed + 1) acc (by omega)
      exact ⟨r, hr, fun _ _ => hname⟩
    obtain ⟨hval, hlt⟩ := hplain (not_not.mp hptr)
    rw [if_neg (fun hl => hptr (hlarge.mp hl)), hval]
    by_cases hbad : buf.length ≤ ptr + buf[ptr].toNat + 1
    · rw [if_pos hbad]
      exact ⟨none, rfl, by simp⟩
    have hblock : readBlock buf ptr (buf[ptr].toNat + 1) =
        .ok ((buf.drop ptr).take (buf[ptr].toNat + 1)) := by
      rw [readBlock, if_pos (.inl (by omega))]
    obtain ⟨r, hr, hname⟩ := ih (ptr + buf[ptr].toNat + 1) followed
      (acc ++ (buf.drop ptr).take (buf[ptr].toNat + 1)) (by omega)
    rw [if_neg hbad, hblock, ok_bind]
    refine ⟨r, hr, ?_⟩
    intro d hd fuel' hfuel
    obtain ⟨f, rfl⟩ : ∃ f, fuel' = f + 1 := ⟨fuel' - 1, by omega⟩
    obtain ⟨n, e, hne, hle⟩ := hname d hd f (by omega)
    refine ⟨n + 1, e, ?_, hle⟩
    rw [nameEndLoop_inside f h, if_neg h0, if_neg hptr, hne]
    rfl

lemma nameEndLoop_labels (fuel ptr : Nat)
    (h : nameEndLoop buf fuel ptr = some (n, e)) : ptr + n < e ∧ ptr < buf.length := by
  induction fuel generalizing ptr n e with
  | zero => simp [nameEndLoop] at h
  | succ fuel ih =>
    have hin : ptr < buf.length := by
      by_contra hout
      rw [nameEndLoop_outside _ (by omega)] at h
      exact absurd h (by simp)
    rw [nameEndLoop_inside fuel hin] at h
    refine ⟨?_, hin⟩
    by_cases h0 : buf[ptr] = 0
    · rw [if_pos h0, some.injEq, Prod.mk.injEq] at h
      omega
    rw [if_neg h0] at h
    by_cases hptr : buf[ptr] &&& 0xc0 ≠ 0
    · rw [if_pos hptr, some.injEq, Prod.mk.injEq] at h
      omega
    rw [if_neg hptr, map_eq_some_iff] at h
    obtain ⟨⟨n', e'⟩, hrest, heq⟩ := h
    rw [Prod.mk.injEq] at heq
    have := (ih _ hrest).1
    omega

def InStep (buf : List UInt8) (turns : List Turn) : Prop :=
  ∀ t ∈ turns, (t.remain : Int) = buf.length - t.ptr

/-- The answer record at `ptr`, with `n` labels in its name and the fixed part of ten bytes at `e`,
lies in the packet as far as it is read. -/
structure AnswerAt (buf : List UInt8) (ptr n e : Nat) : Prop where
  name : nameEnd buf ptr = some (n, e)
  fixed : e + 10 ≤ buf.length
  data : shortAt buf e = 0x10 → e + 10 + shortAt buf (e + 8) ≤ buf.length

def AnswersLie (buf : List UInt8) : Nat → Nat → Prop
  | 0, _ => True
  | count + 1, ptr => ∃ n e, AnswerAt buf ptr n e ∧ (count ≠ 0 → n = 0 ∧
      e + 10 + shortAt buf (e + 8) ≤ buf.length ∧ AnswersLie buf count (e + 10 + shortAt buf (e + 8)))

/-- The questions and answers from `ptr` on are read safely: the first name that cannot be
decompressed ends the packet; a name that is followed by another record has no label, and the
record ends in the packet. -/
def RecordsLie (buf : List UInt8) (ancount : Nat) : Nat → Nat → Prop
  | 0, ptr => AnswersLie buf ancount ptr
  | count + 1, ptr => ptr < buf.length ∧ (decompressLabel buf ptr = .ok none ∨
      ∃ n e, nameEnd buf ptr = some (n, e) ∧ (count ≠ 0 ∨ ancount ≠ 0 → n = 0 ∧
        e + 4 ≤ buf.length ∧ RecordsLie buf ancount count (e + 4)))

def PacketLies (buf : List UInt8) : Prop :=
  buf.length < 17 ∨ ((shortAt buf 4 = 0 ∧ shortAt buf 6 = 0) ∨ buf.length < 65548) ∧
    RecordsLie buf (shortAt buf 6) (shortAt buf 4) 12

/-- Reading the datagram touches no byte outside of it and no `NULL` pointer, `remain` follows the
place in each turn of the two loops, and a packet has as many records as the header says. -/
def ExtractSafe (buf : List UInt8) : Prop :=
  ∃ turns pkt, dnsExtractpkt buf = .ok (turns, pkt) ∧ InStep buf turns ∧
    ∀ p, pkt = some p → p.query.length = shortAt buf 4 ∧ p.answer.length = shortAt buf 6

variable {turns : List Turn}

lemma inStep_append {remain : Nat} :
    InStep buf (turns ++ [⟨ptr, remain⟩]) ↔ InStep buf turns ∧ (remain : Int) = buf.length - ptr := by
  simp [InStep, or_imp, forall_and]

variable {x y : Extracted}

lemma answerAt_of_ok (h : extractAnswer buf x = .ok y) : ∃ n e, AnswerAt buf x.ptr n e := by
  rw [extractAnswer] at h
  cases hlink : extractLink buf x.offsets x.ptr with
  | error err =>
    rw [hlink, error_bind] at h
    exact absurd h (by simp)
  | ok link =>
    rw [hlink, ok_bind] at h
    cases hskip : skipLbl buf x.ptr x.remain with
    | error err =>
      rw [hskip, error_bind] at h
      exact absurd h (by simp)
    | ok r =>
      rw [hskip, ok_bind] at h
      obtain ⟨p, left⟩ := r
      cases p with
      | none => exact absurd h (by simp)
      | some e =>
        obtain ⟨n, hname⟩ := skipLoop_no_name _ _ _ hskip
        refine ⟨n, e, hname, ?_, ?_⟩
        · by_contra hout
          dsimp only at h
          by_cases h1 : e + 1 < buf.length
          · obtain ⟨err, herr⟩ := readShort_outside buf (e + 8) (by omega)
            rw [readShort_inside h1, ok_bind, herr, error_bind] at h
            exact absurd h (by simp)
          obtain ⟨err, herr⟩ := readShort_outside buf e (by omega)
          rw [herr, error_bind] at h
          exact absurd h (by simp)
        intro htype
        by_contra hout
        dsimp only at h
        by_cases h1 : e + 8 + 1 < buf.length
        · rw [readShort_inside (by omega), ok_bind, readShort_inside h1, ok_bind, if_neg (by simp [htype]),
            readBlock, if_neg (by omega), error_bind] at h
          exact absurd h (by simp)
        by_cases h2 : e + 1 < buf.length
        · obtain ⟨err, herr⟩ := readShort_outside buf (e + 8) (by omega)
          rw [readShort_inside h2, ok_bind, herr, error_bind] at h
          exact absurd h (by simp)
        obtain ⟨err, herr⟩ := readShort_outside buf e (by omega)
        rw [herr, error_bind] at h
        exact absurd h (by simp)

lemma extractLink_inside (offsets : List Nat) (h : ptr + 1 < buf.length) :
    ∃ link, extractLink buf offsets ptr = .ok link := by
  have h0 : ptr < buf.length := by omega
  rw [extractLink, readByte_inside h0, ok_bind]
  by_cases hc : buf[ptr] &&& 0xc0 = 0xc0
  · rw [if_pos hc, readByte_inside h, ok_bind]
    dsimp only
    cases offsets.findIdx? (· == buf[ptr].toNat % 64 * 256 + buf[ptr + 1].toNat) with
    | none => exact ⟨_, rfl⟩
    | some j => exact ⟨_, rfl⟩
  rw [if_neg hc]
  exact ⟨_, rfl⟩

lemma extractAnswer_ok (h : AnswerAt buf x.ptr n e) (hstep : x.remain + x.ptr = buf.length)
    (hlt : x.remain < 65536) : ∃ y, extractAnswer buf x = .ok y ∧ y.ptr = e + 10 + shortAt buf (e + 8) ∧
    y.remain < 65536 ∧ (y.remain + (e + 10 + shortAt buf (e + 8))) % 65536 = (buf.length + n) % 65536 := by
  have hplace := (nameEndLoop_labels _ _ h.name).1
  have hfixed := h.fixed
  obtain ⟨link, hlink⟩ := extractLink_inside x.offsets (show x.ptr + 1 < buf.length by omega)
  obtain ⟨left, hskip, hsum, hleft⟩ :=
    skipLoop_nameEnd _ _ x.remain 0 h.name (by omega) (by omega) hlt
  rw [extractAnswer, hlink, ok_bind, skipLbl, hskip, ok_bind]
  dsimp only
  rw [readShort_inside (by omega), ok_bind, readShort_inside (by omega), ok_bind]
  have hdlen : shortAt buf (e + 8) < 65536 := by
    have h1 := (buf.getD (e + 8) 0).toNat_lt
    have h2 := (buf.getD (e + 8 + 1) 0).toNat_lt
    rw [shortAt]
    omega
  by_cases htxt : shortAt buf e = 0x10
  · have hdata := h.data htxt
    rw [if_neg (not_not.mpr htxt), readBlock, if_pos (.inl hdata), ok_bind]
    refine ⟨_, rfl, rfl, by dsimp only; omega, ?_⟩
    dsimp only
    omega
  rw [if_pos htxt]
  refine ⟨_, rfl, rfl, by dsimp only; omega, ?_⟩
  dsimp only
  omega

lemma extractAnswer_adds (h : extractAnswer buf x = .ok y) : y.turns =
    x.turns ++ [⟨x.ptr, x.remain⟩] ∧ y.query = x.query ∧ y.answer.length = x.answer.length + 1 := by
  obtain ⟨n, e, hat⟩ := answerAt_of_ok h
  have hfixed := hat.fixed
  have hplace := (nameEndLoop_labels _ _ hat.name).1
  obtain ⟨link, hlink⟩ := extractLink_inside x.offsets (show x.ptr + 1 < buf.length by omega)
  rw [extractAnswer, hlink, ok_bind] at h
  cases hskip : skipLbl buf x.ptr x.remain with
  | error err =>
    rw [hskip, error_bind] at h
    exact absurd h (by simp)
  | ok r =>
    obtain ⟨p, left⟩ := r
    rw [hskip, ok_bind] at h
    cases p with
    | none => exact absurd h (by simp)
    | some nsh =>
      obtain ⟨m, hm⟩ := skipLoop_no_name _ _ _ hskip
      have heq := hat.name
      rw [nameEnd, hm, some.injEq, Prod.mk.injEq] at heq
      obtain ⟨rfl, rfl⟩ := heq
      dsimp only at h
      rw [readShort_inside (by omega), ok_bind, readShort_inside (by omega), ok_bind] at h
      by_cases htxt : shortAt buf nsh = 0x10
      · rw [if_neg (not_not.mpr htxt), readBlock, if_pos (.inl (hat.data htxt)), ok_bind] at h
        simp only [pure_eq_ok, Except.ok.injEq] at h
        subst h
        exact ⟨rfl, rfl, by simp⟩
      rw [if_pos htxt] at h
      simp only [pure_eq_ok, Except.ok.injEq] at h
      subst h
      exact ⟨rfl, rfl, by simp⟩

lemma extractAnswers_succ {count : Nat} (h : extractAnswers buf (count + 1) x = .ok y) : ∃ z, extractAnswer buf x =
    .ok z ∧ extractAnswers buf count z = .ok y := by
  rw [extractAnswers] at h
  cases hz : extractAnswer buf x with
  | error err =>
    rw [hz, error_bind] at h
    exact absurd h (by simp)
  | ok z =>
    rw [hz, ok_bind] at h
    exact ⟨z, rfl, h⟩

lemma extractAnswers_adds (count : Nat) (h : extractAnswers buf count x = .ok y) : x.turns ⊆ y.turns ∧
    (count ≠ 0 → ⟨x.ptr, x.remain⟩ ∈ y.turns) ∧ y.query = x.query ∧ y.answer.length = x.answer.length + count := by
  induction count generalizing x with
  | zero =>
    rw [extractAnswers, pure_eq_ok, Except.ok.injEq] at h
    subst h
    exact ⟨Subset.refl _, by simp, rfl, rfl⟩
  | succ count ih =>
    obtain ⟨z, hz, hrest⟩ := extractAnswers_succ h
    obtain ⟨hturns, hquery, hanswer⟩ := extractAnswer_adds hz
    obtain ⟨hsub, -, hquery', hanswer'⟩ := ih hrest
    rw [hturns] at hsub
    refine ⟨fun t ht => hsub (mem_append_left _ ht), fun _ => hsub (by simp), ?_, by omega⟩
    rw [hquery', hquery]

lemma extractAnswers_iff (count : Nat) (hturns : InStep buf x.turns)
    (hlt : x.remain < 65536) (hstep : count ≠ 0 → x.remain + x.ptr = buf.length) :
    (∃ y, extractAnswers buf count x = .ok y ∧ InStep buf y.turns) ↔ AnswersLie buf count x.ptr := by
  induction count generalizing x with
  | zero => exact ⟨fun _ => trivial, fun _ => ⟨x, rfl, hturns⟩⟩
  | succ count ih =>
    have hnow := hstep (by omega)
    constructor
    · rintro ⟨y, hy, hin⟩
      obtain ⟨z, hz, hrest⟩ := extractAnswers_succ hy
      obtain ⟨n, e, hat⟩ := answerAt_of_ok hz
      refine ⟨n, e, hat, ?_⟩
      intro hmore
      obtain ⟨z', hz', hptr, hzlt, hmod⟩ := extractAnswer_ok hat hnow hlt
      obtain rfl : z = z' := by
        rw [hz, Except.ok.injEq] at hz'
        exact hz'
      -- the next turn is in step, so no label was counted wrong
      have hnext := hin _ ((extractAnswers_adds count hrest).2.1 hmore)
      have hplace := (nameEndLoop_labels _ _ hat.name).1
      have hfixed := hat.fixed
      dsimp only at hnext
      rw [hptr] at hnext
      have hn : n = 0 := by omega
      refine ⟨hn, by omega, ?_⟩
      rw [← hptr]
      refine (ih ?_ hzlt (fun _ => by omega)).mp ⟨y, hrest, hin⟩
      intro t ht
      exact hin t ((extractAnswers_adds count hrest).1 ht)
    rintro ⟨n, e, hat, hmore⟩
    obtain ⟨z, hz, hptr, hzlt, hmod⟩ := extractAnswer_ok hat hnow hlt
    have hin : InStep buf z.turns := by
      rw [(extractAnswer_adds hz).1, inStep_append]
      exact ⟨hturns, by omega⟩
    rw [extractAnswers, hz, ok_bind]
    refine (ih hin hzlt ?_).mpr ?_
    · intro hne
      obtain ⟨rfl, hend, -⟩ := hmore hne
      have hplace := (nameEndLoop_labels _ _ hat.name).1
      omega
    cases count with
    | zero => trivial
    | succ count =>
      rw [hptr]
      exact (hmore (by omega)).2.2

def extractRecords (buf : List UInt8) (ancount qdcount : Nat) (x : Extracted) :
    Except Fault (List Turn × Option Extracted) := do
  match ← extractQueries buf qdcount x with
  | (turns, none) => return (turns, none)
  | (_, some x) =>
    let x ← extractAnswers buf ancount x
    return (x.turns, some x)

lemma extractRecords_zero (buf : List UInt8) (ancount : Nat) (x : Extracted) :
    extractRecords buf ancount 0 x =
      extractAnswers buf ancount x >>= fun y => .ok (y.turns, some y) := rfl

lemma extractRecords_succ (buf : List UInt8) (ancount qdcount : Nat) (x : Extracted) :
    extractRecords buf ancount (qdcount + 1) x =
      extractQuery buf x >>= fun r =>
        match r with
        | (turns, none) => .ok (turns, none)
        | (_, some z) => extractRecords buf ancount qdcount z := by
  rw [extractRecords, extractQueries]
  cases extractQuery buf x with
  | error err => rfl
  | ok r =>
    obtain ⟨turns, z⟩ := r
    cases z with
    | none => rfl
    | some z => rfl

lemma extractQuery_ok (hin : x.ptr < buf.length) (hstep : x.remain + x.ptr = buf.length) (hlt : x.remain < 65536) :
    (decompressLabel buf x.ptr = .ok none ∧ extractQuery buf x = .ok (x.turns ++ [⟨x.ptr, x.remain⟩], none)) ∨
    ∃ n e z, decompressLabel buf x.ptr ≠ .ok none ∧ nameEnd buf x.ptr = some (n, e) ∧ e ≤ buf.length ∧
    extractQuery buf x = .ok (x.turns ++ [⟨x.ptr, x.remain⟩], some z) ∧ z.ptr = e + 4 ∧ z.remain < 65536 ∧
    (z.remain + (e + 4)) % 65536 = (buf.length + n) % 65536 := by
  obtain ⟨r, hr, hname⟩ := decompressLoop_inside (22 * (buf.length + 1)) x.ptr 0 [] hin
  rw [extractQuery, decompressLabel, hr, ok_bind]
  cases r with
  | none => exact .inl ⟨rfl, rfl⟩
  | some d =>
    obtain ⟨n, e, hne, hle⟩ := hname d rfl (buf.length + 1) (by omega)
    obtain ⟨left, hskip, hsum, hleft⟩ := skipLoop_nameEnd _ _ x.remain 0 hne hle (by omega) hlt
    dsimp only
    rw [skipLbl, hskip, ok_bind]
    refine .inr ⟨n, e, _, by simp, hne, hle, rfl, rfl, ?_, ?_⟩
    · dsimp only
      omega
    dsimp only
    omega

lemma extractQuery_adds {r : Option Extracted}
    (h : extractQuery buf x = .ok (turns, r)) : turns = x.turns ++ [⟨x.ptr, x.remain⟩] ∧ ∀ z, r = some z → z.turns =
    turns ∧ z.query.length = x.query.length + 1 ∧ z.answer = x.answer := by
  rw [extractQuery] at h
  cases hname : decompressLabel buf x.ptr with
  | error err =>
    rw [hname, error_bind] at h
    exact absurd h (by simp)
  | ok d =>
    rw [hname, ok_bind] at h
    cases d with
    | none =>
      simp only [pure_eq_ok, Except.ok.injEq, Prod.mk.injEq] at h
      obtain ⟨rfl, rfl⟩ := h
      exact ⟨rfl, by simp⟩
    | some d =>
      dsimp only at h
      cases hskip : skipLbl buf x.ptr x.remain with
      | error err =>
        rw [hskip, error_bind] at h
        exact absurd h (by simp)
      | ok p =>
        obtain ⟨p, left⟩ := p
        rw [hskip, ok_bind] at h
        cases p with
        | none =>
          simp only [pure_eq_ok, Except.ok.injEq, Prod.mk.injEq] at h
          obtain ⟨rfl, rfl⟩ := h
          exact ⟨rfl, by simp⟩
        | some p =>
          simp only [pure_eq_ok, Except.ok.injEq, Prod.mk.injEq] at h
          obtain ⟨rfl, rfl⟩ := h
          refine ⟨rfl, ?_⟩
          rintro z hz
          obtain rfl := some.inj hz
          exact ⟨rfl, by simp, rfl⟩

lemma extractRecords_adds (ancount qdcount : Nat)
    {r : Option Extracted} (h : extractRecords buf ancount qdcount x = .ok (turns, r)) : x.turns ⊆ turns ∧
    (ancount ≠ 0 ∨ qdcount ≠ 0 → ⟨x.ptr, x.remain⟩ ∈ turns) ∧ ∀ y, r = some y → y.query.length =
    x.query.length + qdcount ∧ y.answer.length = x.answer.length + ancount := by
  induction qdcount generalizing x with
  | zero =>
    rw [extractRecords_zero] at h
    cases hy : extractAnswers buf ancount x with
    | error err =>
      rw [hy, error_bind] at h
      exact absurd h (by simp)
    | ok y =>
      obtain ⟨hsub, hmem, hquery, hanswer⟩ := extractAnswers_adds ancount hy
      rw [hy, ok_bind, Except.ok.injEq, Prod.mk.injEq] at h
      obtain ⟨rfl, rfl⟩ := h
      refine ⟨hsub, fun hne => hmem (by omega), ?_⟩
      rintro z hz
      obtain rfl := some.inj hz
      exact ⟨by rw [hquery]; omega, hanswer⟩
  | succ qdcount ih =>
    rw [extractRecords_succ] at h
    cases hq : extractQuery buf x with
    | error err =>
      rw [hq, error_bind] at h
      exact absurd h (by simp)
    | ok p =>
      obtain ⟨first, z⟩ := p
      obtain ⟨hfirst, hz⟩ := extractQuery_adds hq
      rw [hq, ok_bind] at h
      cases z with
      | none =>
        rw [Except.ok.injEq, Prod.mk.injEq] at h
        obtain ⟨rfl, rfl⟩ := h
        rw [hfirst]
        exact ⟨subset_append_left _ _, fun _ => by simp, by simp⟩
      | some z =>
        obtain ⟨hturns, hquery, hanswer⟩ := hz z rfl
        obtain ⟨hsub, -, hcount⟩ := ih h
        rw [hturns, hfirst] at hsub
        refine ⟨fun t ht => hsub (mem_append_left _ ht), fun _ => hsub (by simp), ?_⟩
        intro y hy
        obtain ⟨hyq, hya⟩ := hcount y hy
        exact ⟨by omega, by rw [hya, hanswer]⟩

lemma decompressLabel_outside (h : buf.length ≤ ptr) : decompressLabel buf ptr = .error (.outside ptr) := by
  obtain ⟨fuel, hfuel⟩ : ∃ fuel, 22 * (buf.length + 1) = fuel + 1 := ⟨22 * buf.length + 21, by omega⟩
  rw [decompressLabel, hfuel, decompressLoop, readByte_outside h, error_bind]

lemma extractRecords_iff (ancount qdcount : Nat) (hturns : InStep buf x.turns)
    (hlt : x.remain < 65536) (hstep : ancount ≠ 0 ∨ qdcount ≠ 0 → x.remain + x.ptr = buf.length) :
    (∃ turns r, extractRecords buf ancount qdcount x = .ok (turns, r) ∧ InStep buf turns) ↔
    RecordsLie buf ancount qdcount x.ptr := by
  induction qdcount generalizing x with
  | zero =>
    rw [RecordsLie, ← extractAnswers_iff ancount hturns hlt (fun hne => hstep (.inl hne)),
      extractRecords_zero]
    constructor
    · rintro ⟨turns, r, h, hin⟩
      cases hy : extractAnswers buf ancount x with
      | error err =>
        rw [hy, error_bind] at h
        exact absurd h (by simp)
      | ok y =>
        rw [hy, ok_bind, Except.ok.injEq, Prod.mk.injEq] at h
        exact ⟨y, rfl, by rw [h.1]; exact hin⟩
    rintro ⟨y, hy, hin⟩
    exact ⟨y.turns, some y, by rw [hy, ok_bind], hin⟩
  | succ qdcount ih =>
    have hnow := hstep (.inr (by omega))
    rw [RecordsLie, extractRecords_succ]
    by_cases hin : x.ptr < buf.length
    · have hbegun : InStep buf (x.turns ++ [⟨x.ptr, x.remain⟩]) :=
        inStep_append.mpr ⟨hturns, by omega⟩
      rcases extractQuery_ok hin hnow hlt with ⟨hnone, hq⟩ |
        ⟨n, e, z, hsome, hname, hle, hq, hptr, hzlt, hmod⟩
      · rw [hq, ok_bind]
        exact ⟨fun _ => ⟨hin, .inl hnone⟩, fun _ => ⟨_, _, rfl, hbegun⟩⟩
      have hplace := (nameEndLoop_labels _ _ hname).1
      have hz : InStep buf z.turns := by
        rw [((extractQuery_adds hq).2 z rfl).1]
        exact hbegun
      rw [hq, ok_bind]
      dsimp only
      constructor
      · rintro ⟨turns, r, h, hall⟩
        refine ⟨hin, .inr ⟨n, e, hname, ?_⟩⟩
        intro hmore
        -- the turn that follows is in step, so no label was counted wrong
        have hnext := hall _ ((extractRecords_adds ancount qdcount h).2.1 hmore.symm)
        dsimp only at hnext
        rw [hptr] at hnext
        refine ⟨by omega, by omega, ?_⟩
        rw [← hptr]
        exact (ih hz hzlt (fun _ => by omega)).mp ⟨turns, r, h, hall⟩
      rintro ⟨-, hlie⟩
      obtain ⟨n', e', hname', hmore⟩ := hlie.resolve_left hsome
      rw [hname, some.injEq, Prod.mk.injEq] at hname'
      obtain ⟨rfl, rfl⟩ := hname'
      refine (ih hz hzlt ?_).mpr ?_
      · intro hne
        obtain ⟨rfl, hend, -⟩ := hmore hne.symm
        omega
      rw [hptr]
      by_cases hne : qdcount ≠ 0 ∨ ancount ≠ 0
      · exact (hmore hne).2.2
      obtain ⟨rfl, rfl⟩ : qdcount = 0 ∧ ancount = 0 := by omega
      trivial
    · rw [extractQuery, decompressLabel_outside (by omega), error_bind, error_bind]
      constructor
      · rintro ⟨turns, r, h, -⟩
        exact absurd h (by simp)
      rintro ⟨hlt', -⟩
      exact absurd hlt' hin

lemma dnsExtractpkt_records (h : 17 ≤ buf.length) :
    dnsExtractpkt buf = extractRecords buf (shortAt buf 6) (shortAt buf 4)
      ⟨12, (buf.length - 12) % 65536, [], [], [], []⟩ >>= fun r =>
        .ok (r.1, r.2.map (fun y => ⟨shortAt buf 0, none, y.query, y.answer⟩)) := by
  rw [dnsExtractpkt, if_neg (by omega), readShort_inside (by omega), ok_bind,
    readShort_inside (by omega), ok_bind, readShort_inside (by omega), ok_bind, extractRecords]
  dsimp only
  cases extractQueries buf (shortAt buf 4) ⟨12, (buf.length - 12) % 65536, [], [], [], []⟩ with
  | error err => rfl
  | ok r =>
    obtain ⟨turns, z⟩ := r
    cases z with
    | none => rfl
    | some z =>
      simp only [ok_bind]
      cases extractAnswers buf (shortAt buf 6) z with
      | error err => rfl
      | ok y => rfl

/-- A datagram is read safely if and only if its records lie in it, one after the other, with no
label in a name that another record follows. -/
theorem dns_extract_safe_iff (buf : List UInt8) : ExtractSafe buf ↔ PacketLies buf := by
  by_cases hshort : buf.length < 17
  · refine ⟨fun _ => .inl hshort, fun _ => ⟨[], none, ?_, by simp [InStep], by simp⟩⟩
    rw [dnsExtractpkt, if_pos hshort]
    rfl
  rw [ExtractSafe, PacketLies, dnsExtractpkt_records (by omega)]
  set x : Extracted := ⟨12, (buf.length - 12) % 65536, [], [], [], []⟩ with hx
  have hturns : InStep buf x.turns := by simp [InStep, hx]
  have hlt : x.remain < 65536 := by
    simp only [hx]
    omega
  constructor
  · rintro ⟨turns, pkt, h, hin, -⟩
    cases hr : extractRecords buf (shortAt buf 6) (shortAt buf 4) x with
    | error err =>
      rw [hr, error_bind] at h
      exact absurd h (by simp)
    | ok r =>
      obtain ⟨turns', y⟩ := r
      rw [hr, ok_bind, Except.ok.injEq, Prod.mk.injEq] at h
      obtain ⟨rfl, -⟩ := h
      have hfits : shortAt buf 6 ≠ 0 ∨ shortAt buf 4 ≠ 0 → buf.length < 65548 := by
        intro hne
        have hfirst := hin _ ((extractRecords_adds _ _ hr).2.1 hne)
        simp only [hx] at hfirst
        omega
      refine .inr ⟨by omega, ?_⟩
      refine (extractRecords_iff _ _ hturns hlt ?_).mp ⟨_, _, hr, hin⟩
      intro hne
      have := hfits hne
      simp only [hx]
      omega
  rintro (hcontra | ⟨hfits, hlie⟩)
  · exact absurd hcontra hshort
  have hstep : shortAt buf 6 ≠ 0 ∨ shortAt buf 4 ≠ 0 → x.remain + x.ptr = buf.length := by
    intro hne
    simp only [hx]
    omega
  obtain ⟨turns, r, hr, hin⟩ := (extractRecords_iff _ _ hturns hlt hstep).mpr hlie
  refine ⟨turns, _, by rw [hr, ok_bind], hin, ?_⟩
  intro p hp
  rw [map_eq_some_iff] at hp
  obtain ⟨y, hy, rfl⟩ := hp
  obtain ⟨hquery, hanswer⟩ := (extractRecords_adds _ _ hr).2.2 y hy
  simpa [hx] using And.intro hquery hanswer

/-- An answer of five bytes behind the header: the length of its data is read four bytes behind the
end of the datagram. -/
theorem dns_extract_short_answer : ¬ ExtractSafe [0, 0, 0, 0, 0, 0, 0, 1, 0, 0, 0, 0, 0, 0, 0, 0, 0] := by
  rintro ⟨turns, pkt, h, -⟩
  have hrun : dnsExtractpkt [0, 0, 0, 0, 0, 0, 0, 1, 0, 0, 0, 0, 0, 0, 0, 0, 0] =
      .error (.outside 21) := by
    decide +kernel
  rw [hrun] at h
  exact absurd h (by simp)

/-- The same length with a label in the name: `_skip_lbl` gives `NULL`, which is read through. -/
example : dnsExtractpkt [0, 0, 0, 0, 0, 0, 0, 1, 0, 0, 0, 0, 5, 0, 0, 0, 0] =
    .error .nullPointer := by
  decide +kernel

end Vde
