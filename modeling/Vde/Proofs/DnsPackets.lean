import Vde.Lib.Fuel
import Vde.Proofs.DnsNames

/-!
# Packets written and read back

The reader follows the writer record by record. What is left of the packet at an offset is
described by `List.drop`; `_skip_lbl` counts one byte too few for every label, so `remain` is in
general larger than the rest of the packet, and it never gets smaller than that.
-/

namespace Vde

open List

variable {buf rest : List UInt8} {off : Nat}

lemma readByte_drop {b : UInt8} (h : buf.drop off = b :: rest) : readByte buf off = .ok b := by
  have hget : buf[off]? = some b := by
    have h0 : (buf.drop off)[0]? = some b := by rw [h]; rfl
    rwa [getElem?_drop, Nat.add_zero] at h0
  rw [readByte, hget]

lemma drop_add_of_drop {n : Nat} (xs : List UInt8)
    (h : buf.drop off = xs ++ rest) (hn : n = off + xs.length) : buf.drop n = rest := by
  rw [hn, ← drop_drop, h, drop_left' rfl]

lemma length_of_drop {b : UInt8} (h : buf.drop off = b :: rest) : buf.length = off + 1 + rest.length := by
  have := congrArg length h
  rw [length_drop, length_cons] at this
  omega

lemma readShort_drop {b0 b1 : UInt8} (h : buf.drop off = b0 :: b1 :: rest) :
    readShort buf off = .ok (b0.toNat * 256 + b1.toNat) := by
  have h1 : buf.drop (off + 1) = b1 :: rest := drop_add_of_drop [b0] h rfl
  rw [readShort, readByte_drop h, ok_bind, readByte_drop h1]
  rfl

lemma readBlock_drop {xs : List UInt8} (h : buf.drop off = xs ++ rest) : readBlock buf off xs.length = .ok xs := by
  have hle : off + xs.length ≤ buf.length ∨ xs.length = 0 := by
    have := congrArg length h
    rw [length_drop, length_append] at this
    omega
  rw [readBlock, if_pos hle, h, take_left' rfl]

lemma charToUnsigned_label {l : List UInt8} (h : IsLabel l) : charToUnsigned (UInt8.ofNat l.length) = l.length := by
  have hshort := h.short
  rw [charToUnsigned, h.length_toNat, if_pos (by omega)]

variable {ls : List (List UInt8)} {ptr : Nat}

lemma label_drop {l : List UInt8} (h : buf.drop ptr = labelForm (l :: ls) ++ 0 :: rest) : buf.drop ptr =
    (UInt8.ofNat l.length :: l) ++ (labelForm ls ++ 0 :: rest) ∧ buf.drop (ptr + l.length + 1) =
    labelForm ls ++ 0 :: rest := by
  have hblock : buf.drop ptr = (UInt8.ofNat l.length :: l) ++ (labelForm ls ++ 0 :: rest) := by
    rw [h, labelForm_cons]
    simp
  exact ⟨hblock, drop_add_of_drop _ hblock (Nat.add_assoc _ _ _)⟩

lemma decompressLoop_labels (hls : ∀ l ∈ ls, IsLabel l) (fuel followed : Nat) (acc : List UInt8)
    (h : buf.drop ptr = labelForm ls ++ 0 :: rest) (hacc : acc ++ labelForm ls ≠ []) (hfuel : ls.length < fuel) :
    decompressLoop buf fuel ptr followed acc = .ok (some (acc ++ labelForm ls ++ [0])) := by
  induction ls generalizing ptr fuel acc with
  | nil =>
    obtain ⟨fuel, rfl⟩ : ∃ f, fuel = f + 1 := ⟨fuel - 1, by omega⟩
    rw [labelForm_nil, append_nil] at hacc ⊢
    have hzero : charToUnsigned 0 = 0 := rfl
    rw [decompressLoop, readByte_drop (h : buf.drop ptr = 0 :: rest), ok_bind]
    dsimp only
    rw [hzero, if_pos rfl, if_neg hacc]
    rfl
  | cons l ls ih =>
    have hl := hls l (by simp)
    have hpos := hl.pos
    have hshort := hl.short
    obtain ⟨fuel, rfl⟩ : ∃ f, fuel = f + 1 := ⟨fuel - 1, by omega⟩
    obtain ⟨hblock, hnext⟩ := label_drop h
    have hcons : buf.drop ptr = UInt8.ofNat l.length :: (l ++ (labelForm ls ++ 0 :: rest)) := hblock
    have hlen := length_of_drop hcons
    simp only [length_append, length_cons] at hlen
    have hread : readBlock buf ptr (l.length + 1) = .ok (UInt8.ofNat l.length :: l) := by
      have := readBlock_drop hblock
      rwa [length_cons] at this
    have hrec := ih (fun q hq => hls q (by simp [hq])) fuel (acc ++ UInt8.ofNat l.length :: l) hnext
      (by simp) (by simp at hfuel; omega)
    rw [decompressLoop, readByte_drop hcons, ok_bind]
    dsimp only
    rw [charToUnsigned_label hl, if_neg (by omega), if_neg (by omega), if_neg (by omega), hread, ok_bind,
      hrec, labelForm_cons]
    simp

lemma labelForm_count (ls : List (List UInt8)) : ls.length ≤ (labelForm ls).length := by
  induction ls with
  | nil => simp
  | cons l ls ih =>
    simp
    omega

lemma decompressLabel_labels (hne : ls ≠ []) (hls : ∀ l ∈ ls, IsLabel l)
    (h : buf.drop ptr = labelForm ls ++ 0 :: rest) :
    decompressLabel buf ptr = .ok (some (labelForm ls ++ [0])) := by
  have hform : labelForm ls ≠ [] := by
    obtain ⟨l, ls, rfl⟩ := exists_cons_of_ne_nil hne
    simp
  have hcount := labelForm_count ls
  have hlen : (labelForm ls).length + 1 ≤ buf.length := by
    have := congrArg length h
    rw [length_drop, length_append, length_cons] at this
    omega
  rw [decompressLabel, decompressLoop_labels hls _ 0 [] h (by simpa using hform) (by omega)]
  rfl

lemma plain_byte : ∀ n < 64, UInt8.ofNat n &&& 0xc0 = 0 := by decide

lemma pointer_byte : ∀ n < 64, UInt8.ofNat (0xc0 ||| n) &&& 0xc0 = 0xc0 ∧
    UInt8.ofNat (0xc0 ||| n) ≠ 0 ∧ (UInt8.ofNat (0xc0 ||| n)).toNat % 64 = n := by decide

lemma skipLoop_labels (hls : ∀ l ∈ ls, IsLabel l) (fuel len : Nat) (h : buf.drop ptr = labelForm ls ++ 0 :: rest)
    (hlen : buf.length ≤ ptr + len) (hlt : len < 65536) (hfuel : ls.length < fuel) : ∃ len',
    skipLoop buf fuel ptr len = .ok (some (ptr + (labelForm ls).length + 1), len') ∧
    buf.length ≤ ptr + (labelForm ls).length + 1 + len' ∧ len' < 65536 := by
  induction ls generalizing ptr fuel len with
  | nil =>
    obtain ⟨fuel, rfl⟩ : ∃ f, fuel = f + 1 := ⟨fuel - 1, by omega⟩
    have hzero : buf.drop ptr = 0 :: rest := h
    have hl := length_of_drop hzero
    refine ⟨(len + 65535) % 65536, ?_, ?_, by omega⟩
    · rw [skipLoop, readByte_drop hzero]
      rfl
    simp only [labelForm_nil, length_nil]
    omega
  | cons l ls ih =>
    have hl := hls l (by simp)
    have hnum := hl.length_toNat
    have hpos := hl.pos
    have hshort := hl.short
    obtain ⟨fuel, rfl⟩ : ∃ f, fuel = f + 1 := ⟨fuel - 1, by omega⟩
    obtain ⟨hblock, hnext⟩ := label_drop h
    have hcons : buf.drop ptr = UInt8.ofNat l.length :: (l ++ (labelForm ls ++ 0 :: rest)) := hblock
    have htotal := length_of_drop hcons
    simp only [length_append, length_cons] at htotal
    have hne0 : UInt8.ofNat l.length ≠ 0 := by
      intro hz
      rw [hz] at hnum
      simp at hnum
      omega
    have hplain : UInt8.ofNat l.length &&& 0xc0 = 0 := plain_byte l.length (by omega)
    have hsub : (len + 65536 - l.length) % 65536 = len - l.length := by omega
    obtain ⟨len', hskip, hleft, hlt'⟩ := ih (fun q hq => hls q (by simp [hq])) fuel (len - l.length)
      hnext (by omega) (by omega) (by simp at hfuel; omega)
    refine ⟨len', ?_, ?_, hlt'⟩
    · rw [skipLoop, readByte_drop hcons, ok_bind, if_neg hne0, if_neg (by omega),
        if_neg (by rw [hplain]; simp), hnum]
      dsimp only
      rw [hsub, if_neg (by omega), hskip, labelForm_cons]
      simp only [length_cons, length_append]
      congr 4
      omega
    rw [labelForm_cons]
    simp only [length_cons, length_append]
    omega

def nameRr (ls : List (List UInt8)) : Rr := ⟨some (labelForm ls ++ [0]), (labelForm ls).length + 1, 0⟩

def txtRr (d : List UInt8) (link : Nat) : Rr := ⟨some (data2txt d), (data2txt d).length, link⟩

def IsName (ls : List (List UInt8)) : Prop := ls ≠ [] ∧ ∀ l ∈ ls, IsLabel l

lemma skipLbl_labels (hls : ∀ l ∈ ls, IsLabel l) {len : Nat}
    (h : buf.drop ptr = labelForm ls ++ 0 :: rest) (hlen : buf.length ≤ ptr + len) (hlt : len < 65536) : ∃ len',
    skipLbl buf ptr len = .ok (some (ptr + (labelForm ls).length + 1), len') ∧
    buf.length ≤ ptr + (labelForm ls).length + 1 + len' ∧ len' < 65536 := by
  apply skipLoop_labels hls (buf.length + 1) len h hlen hlt
  have hcount := labelForm_count ls
  have := congrArg length h
  rw [length_drop, length_append, length_cons] at this
  omega

variable {x : Extracted}

lemma extractQuery_name (hls : IsName ls)
    (h : buf.drop x.ptr = labelForm ls ++ [0] ++ [0, 16, 0, 1] ++ rest)
    (hlen : buf.length ≤ x.ptr + x.remain) (hlt : x.remain < 65536) (hptr : x.ptr < 65536) :
    ∃ turns remain, extractQuery buf x = .ok (turns, some
        { x with
          ptr := x.ptr + (nameRr ls).len + 4, remain := remain, offsets := x.offsets ++ [x.ptr]
          query := x.query ++ [nameRr ls], turns := turns }) ∧
      buf.length ≤ x.ptr + (nameRr ls).len + 4 + remain ∧ remain < 65536 := by
  have hname : buf.drop x.ptr = labelForm ls ++ 0 :: ([0, 16, 0, 1] ++ rest) := by
    rw [h]
    simp
  obtain ⟨len', hskip, hleft, hlt'⟩ := skipLbl_labels hls.2 hname hlen hlt
  have htotal : buf.length = x.ptr + (labelForm ls).length + 1 + 4 + rest.length := by
    have := congrArg length hname
    simp only [length_drop, length_append, length_cons, length_nil] at this
    omega
  have hstr : cString (labelForm ls ++ [0]) = labelForm ls :=
    cString_append_zero (labelForm_nonzero hls.2) []
  have hmod : x.ptr % 65536 = x.ptr := Nat.mod_eq_of_lt hptr
  refine ⟨x.turns ++ [⟨x.ptr, x.remain⟩], (len' + 65532) % 65536, ?_, ?_, by omega⟩
  · rw [extractQuery, decompressLabel_labels hls.1 hls.2 hname, ok_bind]
    dsimp only
    rw [hskip, ok_bind]
    dsimp only
    rw [hstr, hmod]
    rfl
  simp only [nameRr]
  omega

lemma extractQueries_section {names : List (List (List UInt8))} (hnames : ∀ ls ∈ names, IsName ls)
        (h : buf.drop x.ptr = (querySection x.ptr (names.map nameRr)).2 ++ rest)
    (hlen : buf.length ≤ x.ptr + x.remain) (hlt : x.remain < 65536) (hbuf : buf.length < 65536) :
    ∃ turns remain, extractQueries buf names.length x = .ok (turns, some
        { x with
          ptr := x.ptr + (querySection x.ptr (names.map nameRr)).2.length, remain := remain
          offsets := x.offsets ++ (querySection x.ptr (names.map nameRr)).1
          query := x.query ++ names.map nameRr, turns := turns }) ∧
      buf.length ≤ x.ptr + (querySection x.ptr (names.map nameRr)).2.length + remain ∧
      remain < 65536 := by
  induction names generalizing x with
  | nil =>
    refine ⟨x.turns, x.remain, ?_, by simpa [querySection] using hlen, hlt⟩
    simp [extractQueries, querySection]
  | cons ls names ih =>
    have hls := hnames ls (by simp)
    have hsec : (querySection x.ptr ((ls :: names).map nameRr)).2 =
        labelForm ls ++ [0] ++ [0, 16, 0, 1] ++
          (querySection (x.ptr + (nameRr ls).len + 4) (names.map nameRr)).2 := by
      simp [querySection, nameRr, rrBytes]
    have hoff : (querySection x.ptr ((ls :: names).map nameRr)).1 =
        x.ptr :: (querySection (x.ptr + (nameRr ls).len + 4) (names.map nameRr)).1 := rfl
    rw [hsec, append_assoc] at h
    have hptr : x.ptr < 65536 := by
      have := congrArg length h
      simp only [length_drop, length_append, length_cons, length_nil] at this
      omega
    obtain ⟨turns, remain, hone, hleft, hlt'⟩ := extractQuery_name hls h hlen hlt hptr
    have hnext := drop_add_of_drop _ h (n := x.ptr + (nameRr ls).len + 4) (by simp [nameRr]; omega)
    obtain ⟨turns', remain', hrest, hleft', hlt''⟩ := ih (fun q hq => hnames q (by simp [hq]))
      (x := { x with
        ptr := x.ptr + (nameRr ls).len + 4, remain := remain, offsets := x.offsets ++ [x.ptr]
        query := x.query ++ [nameRr ls], turns := turns }) hnext hleft hlt'
    have hshift : x.ptr + (querySection x.ptr ((ls :: names).map nameRr)).2.length =
        x.ptr + (nameRr ls).len + 4 +
          (querySection (x.ptr + (nameRr ls).len + 4) (names.map nameRr)).2.length := by
      rw [hsec]
      simp [nameRr]
      omega
    refine ⟨turns', remain', ?_, by rw [hshift]; exact hleft', hlt''⟩
    rw [length_cons, extractQueries, hone, ok_bind]
    dsimp only
    rw [hrest, hshift, hoff]
    simp

lemma querySection_offsets (off : Nat) (list : List Rr) : (querySection off list).1.length = list.length ∧
    (querySection off list).1.Pairwise (· < ·) ∧ ∀ o ∈ (querySection off list).1, off ≤ o ∧
    o < off + (list.map (fun rr => rr.len + 4)).sum := by
  induction list generalizing off with
  | nil => simp [querySection]
  | cons rr list ih =>
    obtain ⟨hlen, hsorted, hin⟩ := ih (off + rr.len + 4)
    rw [querySection]
    refine ⟨by simp [hlen], ?_, ?_⟩
    · rw [pairwise_cons]
      refine ⟨fun o ho => ?_, hsorted⟩
      have := (hin o ho).1
      omega
    intro o ho
    rw [mem_cons] at ho
    rw [map_cons, sum_cons]
    rcases ho with rfl | ho
    · omega
    have := hin o ho
    omega

lemma findIdx?_getD {offsets : List Nat} (hsorted : offsets.Pairwise (· < ·)) {j : Nat}
    (hj : j < offsets.length) : offsets.findIdx? (· == offsets.getD j 0) = some j := by
  have hget : offsets.getD j 0 = offsets[j] := by simp [hj]
  rw [hget, findIdx?_eq_some_iff_getElem]
  refine ⟨hj, by simp, ?_⟩
  intro i hi
  have hlt := pairwise_iff_getElem.mp hsorted i j (by omega) hj hi
  have hne : offsets[i] ≠ offsets[j] := by omega
  simpa using hne

def txtBytes (offsets : List Nat) (a : List UInt8 × Nat) : List UInt8 :=
  [UInt8.ofNat (0xc0 ||| offsets.getD a.2 0 / 256), UInt8.ofNat (offsets.getD a.2 0 % 256),
    0, 16, 0, 1, 0, 0, 0, 0, UInt8.ofNat ((data2txt a.1).length / 256),
    UInt8.ofNat ((data2txt a.1).length % 256)] ++ data2txt a.1

lemma extractAnswer_txt {a : List UInt8 × Nat}
    (h : buf.drop x.ptr = txtBytes x.offsets a ++ rest) (hlink : a.2 < x.offsets.length)
    (hsorted : x.offsets.Pairwise (· < ·)) (hoff : ∀ o ∈ x.offsets, o < 16384)
    (hlen : buf.length ≤ x.ptr + x.remain) (hlt : x.remain < 65536) (hbuf : buf.length < 65536) :
    ∃ turns remain, extractAnswer buf x = .ok
        { x with
          ptr := x.ptr + (txtBytes x.offsets a).length, remain := remain
          answer := x.answer ++ [txtRr a.1 a.2], turns := turns } ∧
      buf.length ≤ x.ptr + (txtBytes x.offsets a).length + remain ∧ remain < 65536 := by
  have htotal : buf.length = x.ptr + (12 + (data2txt a.1).length) + rest.length := by
    have := congrArg length h
    simp only [txtBytes, length_drop, length_append, length_cons, length_nil] at this
    omega
  have hfind := findIdx?_getD hsorted hlink
  have hsmall : x.offsets.getD a.2 0 < 16384 := by
    have hget : x.offsets.getD a.2 0 = x.offsets[a.2] := by simp [hlink]
    rw [hget]
    exact hoff _ (getElem_mem hlink)
  simp only [txtBytes] at h ⊢
  generalize hd : data2txt a.1 = d at *
  generalize x.offsets.getD a.2 0 = off at *
  obtain ⟨hhigh, hne0, hlow⟩ := pointer_byte (off / 256) (by omega)
  have hb1 : (UInt8.ofNat (off % 256)).toNat = off % 256 := by
    rw [UInt8.toNat_ofNat']
    omega
  have h0 : buf.drop x.ptr = UInt8.ofNat (0xc0 ||| off / 256) :: (UInt8.ofNat (off % 256) ::
      ([0, 16, 0, 1, 0, 0, 0, 0, UInt8.ofNat (d.length / 256), UInt8.ofNat (d.length % 256)] ++
        (d ++ rest))) := by
    rw [h]
    simp
  have h1 := drop_add_of_drop [_] h0 (n := x.ptr + 1) rfl
  have h2 := drop_add_of_drop [_, _] h0 (n := x.ptr + 2) rfl
  have h10 := drop_add_of_drop [0, 16, 0, 1, 0, 0, 0, 0] h2 (n := x.ptr + 2 + 8) rfl
  have h12 := drop_add_of_drop [0, 16, 0, 1, 0, 0, 0, 0, _, _] h2 (n := x.ptr + 2 + 10) rfl
  have hlinkread : extractLink buf x.offsets x.ptr = .ok (a.2 : Int) := by
    rw [extractLink, readByte_drop h0, ok_bind, if_pos hhigh, readByte_drop h1, ok_bind]
    dsimp only
    have hsum : (UInt8.ofNat (0xc0 ||| off / 256)).toNat % 64 * 256 + (UInt8.ofNat (off % 256)).toNat =
        off := by
      rw [hlow, hb1]
      omega
    rw [hsum, hfind]
    rfl
  have hskip : skipLbl buf x.ptr x.remain = .ok (some (x.ptr + 2), x.remain - 2) := by
    rw [skipLbl, skipLoop, readByte_drop h0, ok_bind, if_neg hne0, if_neg (by omega),
      if_pos (by rw [hhigh]; decide)]
    have hdec : (x.remain - 1 + 65535) % 65536 = x.remain - 2 := by omega
    rw [hdec]
    rfl
  have hlenread : (UInt8.ofNat (d.length / 256)).toNat * 256 + (UInt8.ofNat (d.length % 256)).toNat =
      d.length := by
    rw [UInt8.toNat_ofNat', UInt8.toNat_ofNat']
    omega
  have hdatalen : readShort buf (x.ptr + 2 + 8) = .ok d.length := by
    rw [readShort_drop h10, hlenread]
  refine ⟨x.turns ++ [⟨x.ptr, x.remain⟩],
    ((x.remain - 2 + 65526) % 65536 + 65536 - d.length) % 65536, ?_, ?_, by omega⟩
  · rw [extractAnswer, hlinkread, ok_bind, hskip, ok_bind]
    dsimp only
    rw [readShort_drop h2, ok_bind, hdatalen, ok_bind, if_neg (by decide), readBlock_drop h12, ok_bind, txtRr, hd]
    simp only [length_append, length_cons, length_nil, pure_eq_ok, Except.ok.injEq]
    congr 1
    omega
  simp only [length_append, length_cons, length_nil]
  omega

lemma extractAnswers_section {answers : List (List UInt8 × Nat)}
    (h : buf.drop x.ptr = (answers.map (txtBytes x.offsets)).flatten ++ rest)
    (hlink : ∀ a ∈ answers, a.2 < x.offsets.length) (hsorted : x.offsets.Pairwise (· < ·))
    (hoff : ∀ o ∈ x.offsets, o < 16384) (hlen : buf.length ≤ x.ptr + x.remain)
    (hlt : x.remain < 65536) (hbuf : buf.length < 65536) :
    ∃ ptr remain turns, extractAnswers buf answers.length x = .ok
      { x with
        ptr := ptr, remain := remain
        answer := x.answer ++ answers.map (fun a => txtRr a.1 a.2), turns := turns } := by
  induction answers generalizing x with
  | nil => exact ⟨x.ptr, x.remain, x.turns, by simp [extractAnswers]⟩
  | cons a answers ih =>
    rw [map_cons, flatten_cons, append_assoc] at h
    obtain ⟨turns, remain, hone, hleft, hlt'⟩ := extractAnswer_txt h (hlink a (by simp)) hsorted hoff hlen
      hlt hbuf
    have hnext := drop_add_of_drop _ h rfl
    obtain ⟨ptr', remain', turns', hrest⟩ := ih
      (x := { x with
        ptr := x.ptr + (txtBytes x.offsets a).length, remain := remain
        answer := x.answer ++ [txtRr a.1 a.2], turns := turns })
      hnext (fun b hb => hlink b (by simp [hb])) hsorted hoff hleft hlt'
    refine ⟨ptr', remain', turns', ?_⟩
    rw [length_cons, extractAnswers, hone, ok_bind, hrest]
    simp

inductive Built : DnsPkt → Prop
  | alloc : Built dnsAlloc
  | setid (pkt : DnsPkt) (id : Nat) (h : Built pkt) : Built (dnsSetid pkt id)
  | settype (pkt : DnsPkt) (type : DnsType) (h : Built pkt) : Built (dnsSettype pkt type)
  | addquery (pkt : DnsPkt) (ls : List (List UInt8)) (hls : IsName ls) (h : Built pkt) :
      Built (dnsAddquery pkt (labelForm ls))
  | addanswer (pkt : DnsPkt) (d : List UInt8) (link : Nat) (hd : d ≠ [])
      (hlink : link < pkt.query.length) (h : Built pkt) : Built (dnsAddanswer pkt d link)

lemma Built.records {pkt : DnsPkt} (h : Built pkt) : pkt.id < 65536 ∧
    ∃ (names : List (List (List UInt8))) (answers : List (List UInt8 × Nat)), pkt.query = names.map nameRr ∧
    (∀ ls ∈ names, IsName ls) ∧ pkt.answer = answers.map (fun a => txtRr a.1 a.2) ∧ ∀ a ∈ answers,
    a.2 < names.length := by
  induction h with
  | alloc => exact ⟨by decide, [], [], rfl, by simp, rfl, by simp⟩
  | setid pkt id _ ih => exact ⟨Nat.mod_lt _ (by decide), ih.2⟩
  | settype pkt type _ ih => exact ih
  | addquery pkt ls hls _ ih =>
    obtain ⟨hid, names, answers, hq, hnames, ha, hlink⟩ := ih
    refine ⟨hid, names ++ [ls], answers, ?_, ?_, ha, ?_⟩
    · simp [dnsAddquery, hq, nameRr]
    · intro l hl
      rw [mem_append, mem_singleton] at hl
      rcases hl with hl | rfl
      · exact hnames l hl
      · exact hls
    intro a ha'
    have := hlink a ha'
    simp
    omega
  | addanswer pkt d link hd hl _ ih =>
    obtain ⟨hid, names, answers, hq, hnames, ha, hlink⟩ := ih
    refine ⟨hid, names, answers ++ [(d, link)], hq, hnames, ?_, ?_⟩
    · simp [dnsAddanswer, ha, txtRr]
    intro a ha'
    rw [mem_append, mem_singleton] at ha'
    rcases ha' with ha' | rfl
    · exact hlink a ha'
    rw [hq, length_map] at hl
    exact hl

lemma answerSection_txt (offsets : List Nat) (answers : List (List UInt8 × Nat)) :
    answerSection offsets (answers.map (fun a => txtRr a.1 a.2)) = (answers.map (txtBytes offsets)).flatten := by
  rw [answerSection, map_map]
  congr 1

lemma querySection_length (off : Nat) (names : List (List (List UInt8))) :
    (querySection off (names.map nameRr)).2.length = ((names.map nameRr).map (fun rr => rr.len + 4)).sum := by
  induction names generalizing off with
  | nil => rfl
  | cons ls names ih =>
    rw [map_cons, querySection, map_cons, sum_cons, ← ih (off + (nameRr ls).len + 4)]
    simp [nameRr, rrBytes]
    omega

lemma answers_length (offsets : List Nat) (answers : List (List UInt8 × Nat)) :
    ((answers.map (txtBytes offsets)).flatten).length =
    ((answers.map (fun a => txtRr a.1 a.2)).map (fun rr => rr.len + 12)).sum := by
  induction answers with
  | nil => rfl
  | cons a answers ih =>
    rw [map_cons, flatten_cons, length_append, ih]
    simp [txtBytes, txtRr]

lemma Built.extract {pkt : DnsPkt} (h : Built pkt) (hquery : pkt.query ≠ [])
    (hqd : pkt.query.length ≤ 255) (han : pkt.answer.length ≤ 255)
    (hsize : dnsGetpktsize pkt ≤ 16383) :
    ∃ turns, dnsExtractpkt (dnsConstructpacket pkt) = .ok (turns, some { pkt with type := none }) := by
  obtain ⟨hid, names, answers, hq, hnames, ha, hlink⟩ := h.records
  obtain ⟨hoffs, hsorted, hin⟩ := querySection_offsets 12 (names.map nameRr)
  have hqlen := querySection_length 12 names
  have halen := answers_length (querySection 12 (names.map nameRr)).1 answers
  rw [dnsGetpktsize, hq, ha] at hsize
  rw [hq, length_map] at hqd
  rw [ha, length_map] at han
  -- the twelve bytes of the header
  obtain ⟨f2, f3, hbuf⟩ : ∃ f2 f3, dnsConstructpacket pkt =
      UInt8.ofNat (pkt.id / 256) :: UInt8.ofNat (pkt.id % 256) :: f2 :: f3 :: 0 ::
        UInt8.ofNat names.length :: 0 :: UInt8.ofNat answers.length :: 0 :: 0 :: 0 :: 0 ::
        ((querySection 12 (names.map nameRr)).2 ++
          ((answers.map (txtBytes (querySection 12 (names.map nameRr)).1)).flatten ++ [])) := by
    rw [dnsConstructpacket, hq, ha, answerSection_txt, length_map, length_map]
    split
    · exact ⟨0x84, 0x80, by simp⟩
    · exact ⟨0x01, 0, by simp⟩
  generalize dnsConstructpacket pkt = buf at hbuf
  have hlen : buf.length = 12 + (querySection 12 (names.map nameRr)).2.length +
      (answers.map (txtBytes (querySection 12 (names.map nameRr)).1)).flatten.length := by
    rw [hbuf]
    simp only [length_cons, length_append, length_nil]
    omega
  have h0 : buf.drop 0 =
      UInt8.ofNat (pkt.id / 256) :: UInt8.ofNat (pkt.id % 256) :: buf.drop 2 := by
    rw [hbuf]
    rfl
  have h4 : buf.drop 4 = 0 :: UInt8.ofNat names.length :: buf.drop 6 := by
    rw [hbuf]
    rfl
  have h6 : buf.drop 6 = 0 :: UInt8.ofNat answers.length :: buf.drop 8 := by
    rw [hbuf]
    rfl
  have hidread : readShort buf 0 = .ok pkt.id := by
    rw [readShort_drop h0, UInt8.toNat_ofNat', UInt8.toNat_ofNat']
    congr 1
    omega
  have hqdread : readShort buf 4 = .ok names.length := by
    rw [readShort_drop h4, UInt8.toNat_ofNat', UInt8.toNat_zero]
    congr 1
    omega
  have hanread : readShort buf 6 = .ok answers.length := by
    rw [readShort_drop h6, UInt8.toNat_ofNat', UInt8.toNat_zero]
    congr 1
    omega
  have hlong : ¬buf.length < 17 := by
    obtain ⟨ls, names', rfl⟩ : ∃ ls names', names = ls :: names' := by
      apply exists_cons_of_ne_nil
      rintro rfl
      exact hquery hq
    have hname := (hnames ls (by simp)).1
    have hcount := labelForm_count ls
    have hpos : 0 < ls.length := length_pos_iff.mpr hname
    simp only [map_cons, sum_cons, nameRr] at hqlen hlen
    omega
  have hstart : buf.drop 12 = (querySection 12 (names.map nameRr)).2 ++
      ((answers.map (txtBytes (querySection 12 (names.map nameRr)).1)).flatten ++ []) := by
    rw [hbuf]
    rfl
  obtain ⟨turns, remain, hqs, hleft, hlt⟩ := extractQueries_section hnames
    (x := { ptr := 12, remain := (buf.length - 12) % 65536, offsets := [], query := [], answer := []
            turns := [] }) hstart (by dsimp only; omega) (by dsimp only; omega) (by omega)
  dsimp only at hqs hleft
  obtain ⟨ptr', remain', turns', has⟩ := extractAnswers_section
    (x := { ptr := 12 + (querySection 12 (names.map nameRr)).2.length, remain := remain
            offsets := [] ++ (querySection 12 (names.map nameRr)).1
            query := [] ++ names.map nameRr, answer := [], turns := turns })
    (drop_add_of_drop _ hstart rfl) (by simpa [hoffs] using hlink) hsorted
    (fun o ho => by have := (hin o ho).2; omega) hleft hlt (by omega)
  refine ⟨turns', ?_⟩
  rw [dnsExtractpkt, if_neg hlong, hidread, ok_bind, hqdread, ok_bind, hanread, ok_bind]
  dsimp only
  rw [hqs, ok_bind]
  dsimp only
  rw [has, ok_bind]
  simp [← hq, ← ha]

/-- What is written is read back: identifier, names, record data and links. -/
theorem dns_packet_roundtrip (pkt : DnsPkt) (h : Built pkt) (hquery : pkt.query ≠ [])
    (hqd : pkt.query.length ≤ 255) (han : pkt.answer.length ≤ 255) (hsize : dnsGetpktsize pkt ≤ 16383) :
    ∃ turns, dnsExtractpkt (dnsConstructpacket pkt) = .ok (turns, some { pkt with type := none }) :=
  h.extract hquery hqd han hsize

/-- A response to the names `abc.de` and `b` with one answer, linked to the second. -/
def sampleResponse : DnsPkt :=
  dnsAddanswer
    (dnsAddquery
      (dnsAddquery (dnsSettype (dnsSetid dnsAlloc 4660) .response)
        (labelForm [[97, 98, 99], [100, 101]]))
      (labelForm [[98]]))
    [1, 2, 3] 1

theorem dns_packet_roundtrip_sample :
    ∃ turns, dnsExtractpkt (dnsConstructpacket sampleResponse) =
      .ok (turns, some { sampleResponse with type := none }) := by
  have habc : IsLabel [97, 98, 99] := ⟨by decide, by decide, by decide +kernel⟩
  have hde : IsLabel [100, 101] := ⟨by decide, by decide, by decide +kernel⟩
  have hb : IsLabel [98] := ⟨by decide, by decide, by decide +kernel⟩
  refine dns_packet_roundtrip sampleResponse ?_ (by decide) (by decide) (by decide) (by decide)
  refine .addanswer _ _ _ (by decide) (by decide) (.addquery _ _ ⟨by decide, ?_⟩ (.addquery _ _
    ⟨by decide, ?_⟩ (.settype _ _ (.setid _ _ .alloc))))
  · simpa using hb
  · simpa using ⟨habc, hde⟩

end Vde
