import Vde.Proofs.DnsNames

/-!
# TXT records

`_cstringify` writes a byte for every byte of the data, one for every chunk and a zero at the end, which is
at most as many as it has computed, unless the sum does not fit into an `unsigned int`.
-/

namespace Vde

open List Option

lemma toInt32_add (x y : Int) : toInt32 (toInt32 x + y) = toInt32 (x + y) := Int.bmod_add_bmod

lemma cstringifyTurns_eq {clen fuel : Nat} (hclen : 1 ≤ clen) {s : List UInt8} (hfuel : s.length ≤ fuel) (d : Nat)
    (n : Int) (buf : Block UInt8) :
    ((cstringifyTurns clen (fuel + 1) s d n buf).bind fun r =>
      (r.2.2.store r.1 0).map fun buf => (buf, toInt32 (r.2.1 + 1))) =
    (buf.storeList d (cstringifyLoop clen fuel s)).map
      fun buf => (buf, toInt32 (n + (cstringifyLoop clen fuel s).length)) := by
  induction fuel generalizing s d n buf with
  | zero =>
    have hs : s = [] := eq_nil_of_length_eq_zero (Nat.le_zero.mp hfuel)
    rw [hs, cstringifyTurns, cstringifyLoop, if_neg (by decide), Block.storeList_singleton]
    rfl
  | succ fuel ih =>
    rw [cstringifyTurns, cstringifyLoop]
    by_cases hs : s.length = 0
    · rw [if_neg (by omega), if_pos hs, Block.storeList_singleton]
      rfl
    rw [if_pos (by omega), if_neg hs]
    dsimp only
    generalize hllen : (if clen < s.length then clen else s.length) = llen
    have hbounds : 1 ≤ llen ∧ llen ≤ s.length := by
      rw [← hllen]
      split <;> omega
    have hrest : (s.drop llen).length ≤ fuel := by
      rw [length_drop]
      omega
    have htake : (s.take llen).length = llen := by
      rw [length_take]
      omega
    rw [cons_append, Block.storeList]
    cases hfirst : buf.store d (UInt8.ofNat llen) with
    | none => rfl
    | some buf₁ =>
      rw [bind_some, Block.storeList_append, bind_eq_bind, bind_some]
      cases hchunk : buf₁.storeList (d + 1) (s.take llen) with
      | none => rfl
      | some buf₂ =>
        rw [bind_some, bind_some, htake, ih hrest]
        have hcount : toInt32 (toInt32 (n + (llen + 1)) + (cstringifyLoop clen fuel (s.drop llen)).length) =
            toInt32 (n + ((UInt8.ofNat llen :: (s.take llen ++ cstringifyLoop clen fuel (s.drop llen))).length : Nat)) := by
          rw [toInt32_add, length_cons, length_append, htake]
          congr 1
          omega
        rw [hcount]

lemma cstringifyBuf_eq {clen : Nat} (hclen : 1 ≤ clen) (buf : Block UInt8) (fresh : Nat → UInt8) (data : List UInt8) :
    cstringifyBuf buf fresh data clen =
      ((buf.realloc (cstringifySize data.length clen) fresh).storeList 0 (cstringify data clen)).map
        fun buf => (buf, toInt32 (cstringify data clen).length) := by
  have hturns := cstringifyTurns_eq hclen (Nat.le_refl data.length) 0 0
    (buf.realloc (cstringifySize data.length clen) fresh)
  rw [Int.zero_add] at hturns
  rw [cstringify, ← hturns, cstringifyBuf]
  dsimp only
  cases cstringifyTurns clen (data.length + 1) data 0 0 (buf.realloc (cstringifySize data.length clen) fresh) with
  | none => rfl
  | some r =>
    rw [bind_eq_bind, bind_some, bind_some]
    cases r.2.2.store r.1 0 with
    | none => rfl
    | some _ => rfl

lemma txt2dataTurns_eq {enc : Block UInt8} {ls : List (List UInt8)} (hls : ∀ l ∈ ls, 1 ≤ l.length ∧ l.length ≤ 255)
    {len fuel s : Nat} (hlen : s + (labelForm ls ++ [0]).length = len)
    (hheld : enc.loadList s (labelForm ls ++ [0]).length = some (labelForm ls ++ [0])) (hfuel : ls.length < fuel)
    (d : Nat) (buf : Block UInt8) : txt2dataTurns enc len fuel s d buf =
    (buf.storeList d ls.flatten).map fun buf => some (d + ls.flatten.length, buf) := by
  induction ls generalizing fuel s d buf with
  | nil =>
    cases fuel with
    | zero => exact absurd hfuel (Nat.not_lt_zero _)
    | succ fuel =>
      rw [labelForm_nil, nil_append, length_singleton] at hlen
      have hzero : enc.load s = some 0 := Block.loadList_singleton.mp hheld
      rw [txt2dataTurns, hzero]
      have hleft : ¬(len : Int) - (s + 1 : Nat) < (0 : UInt8).toNat := by
        have hnone : (0 : UInt8).toNat = 0 := rfl
        omega
      rw [bind_eq_bind, bind_some, if_neg hleft]
      rfl
  | cons l ls ih =>
    cases fuel with
    | zero => exact absurd hfuel (Nat.not_lt_zero _)
    | succ fuel =>
      obtain ⟨hpos, hshort⟩ := hls l mem_cons_self
      have hllen : (UInt8.ofNat l.length).toNat = l.length := by
        rw [UInt8.toNat_ofNat', Nat.mod_eq_of_lt (by omega)]
      have hform : labelForm (l :: ls) ++ [0] = [UInt8.ofNat l.length] ++ (l ++ (labelForm ls ++ [0])) := by
        rw [labelForm_cons]
        simp
      rw [hform, Block.loadList_append, Block.loadList_append] at hheld
      obtain ⟨hhead, hchunk, hrest⟩ := hheld
      rw [length_singleton] at hchunk hrest
      have hload : enc.load s = some (UInt8.ofNat l.length) := Block.loadList_singleton.mp hhead
      rw [hform, length_append, length_append, length_singleton] at hlen
      have hleft : ¬(len : Int) - (s + 1 : Nat) < l.length := by omega
      rw [txt2dataTurns, hload, bind_eq_bind, bind_some, hllen, if_neg hleft, hchunk,
        bind_eq_bind, bind_some, flatten_cons, Block.storeList_append]
      cases hstore : buf.storeList d l with
      | none => rfl
      | some buf₁ =>
        rw [bind_eq_bind, bind_some, bind_some, if_neg (by omega),
          ih (fun l' hl' => hls l' (mem_cons_of_mem _ hl')) (by omega) hrest
            (Nat.lt_of_succ_lt_succ hfuel) (d + l.length) buf₁, length_append, Nat.add_assoc]

lemma storeList_store {b : Block UInt8} {vs : List UInt8} (h : vs.length < b.size) (v : UInt8) : ∃ b' b'',
    b.storeList 0 vs = some b' ∧ b'.store vs.length v = some b'' ∧ b''.loadList 0 vs.length = some vs := by
  obtain ⟨b', hb', hsize, hin, -⟩ := @Block.exists_storeList _ b 0 vs (by omega)
  obtain ⟨b'', hb'', hsize', -, hkeep⟩ := @Block.exists_store _ b' vs.length v (by omega)
  refine ⟨b', b'', hb', hb'', Block.loadList_eq (by omega) ?_⟩
  intro k hk
  rw [hkeep (0 + k) (by omega)]
  exact hin k hk

section

variable {data : List UInt8} {clen : Nat}

lemma cstringifySize_eq (hclen : 1 ≤ clen) (hlen : data.length < 2147483648)
    (hfits : ¬(data.length = 2147483647 ∧ clen = 1)) :
    cstringifySize data.length clen = data.length + data.length / clen + 2 := by
  apply Nat.mod_eq_of_lt
  by_cases hone : clen = 1
  · rw [hone, Nat.div_one]
    omega
  have hhalf : data.length / clen ≤ data.length / 2 := Nat.div_le_div_left (by omega) (by decide)
  omega

lemma cstringify_length_le (hclen : 1 ≤ clen) :
    (cstringify data clen).length ≤ data.length + data.length / clen + 2 := by
  have hround : (data.length + (clen - 1)) / clen ≤ data.length / clen + 1 := by
    rw [← Nat.add_div_right _ hclen]
    exact Nat.div_le_div_right (by omega)
  rw [cstringify, cstringifyLoop_length clen _ hclen data le_rfl]
  omega

lemma cstringifyBuf_fits (hclen : 1 ≤ clen) (hlen : data.length < 2147483648)
    (hfits : ¬(data.length = 2147483647 ∧ clen = 1)) (buf : Block UInt8) (fresh : Nat → UInt8) : ∃ enc,
    cstringifyBuf buf fresh data clen = some (enc, toInt32 (cstringify data clen).length) ∧ enc.size =
    data.length + data.length / clen + 2 ∧ enc.loadList 0 (cstringify data clen).length =
    some (cstringify data clen) := by
  have hsize := cstringifySize_eq hclen hlen hfits
  have hroom := @cstringify_length_le data clen hclen
  obtain ⟨enc, henc, hencSize, hin, -⟩ := @Block.exists_storeList _
    (buf.realloc (cstringifySize data.length clen) fresh) 0 (cstringify data clen)
    (by rw [Block.realloc_size, hsize]; omega)
  rw [Block.realloc_size, hsize] at hencSize
  refine ⟨enc, ?_, hencSize, Block.loadList_eq (by omega) hin⟩
  rw [cstringifyBuf_eq hclen, henc]
  rfl

lemma txt2data_data2txt (hlen : data.length < 2147483648) (buf : Block UInt8) (fresh : Nat → UInt8)
    {enc : Block UInt8} (hheld : enc.loadList 0 (data2txt data).length = some (data2txt data)) : ∃ dec,
    txt2data buf fresh enc (toInt32 (data2txt data).length) = some (some (dec, (data.length : Int))) ∧
    dec.loadList 0 data.length = some data := by
  obtain ⟨ls, hform, hflat, hls⟩ := cstringifyLoop_labels 255 (by decide) data.length data le_rfl
  have htext : data2txt data = labelForm ls ++ [0] := hform
  have hroom := @cstringify_length_le data 255 (by decide)
  have hlong : data.length < (data2txt data).length := by
    have hexact := cstringifyLoop_length 255 data.length (by decide) data le_rfl
    rw [data2txt, cstringify, hexact]
    omega
  have hcount : (toInt32 (data2txt data).length % 4294967296).toNat = (data2txt data).length := by
    have hless : (data2txt data).length < 4294967296 := by
      have hsmall : (data2txt data).length ≤ data.length + data.length / 255 + 2 := hroom
      omega
    obtain ⟨k, hk⟩ := toInt32_congr (data2txt data).length
    omega
  have hchunks : ls.length ≤ (labelForm ls).length := by
    clear hform htext hflat
    induction ls with
    | nil => exact Nat.zero_le _
    | cons l ls ih =>
      have hrest := ih (fun l' hl' => hls l' (mem_cons_of_mem _ hl'))
      rw [labelForm_cons, length_cons, length_cons, length_append]
      omega
  have hfuel : ls.length < (data2txt data).length + 1 := by
    rw [htext, length_append]
    omega
  have hheld' : enc.loadList 0 (labelForm ls ++ [0]).length = some (labelForm ls ++ [0]) := by
    rw [← htext]
    exact hheld
  have hturns := @txt2dataTurns_eq enc ls hls _ _ 0 (Nat.zero_add (labelForm ls ++ [0]).length) hheld' hfuel 0
    (buf.realloc (data2txt data).length fresh)
  rw [← htext, hflat, Nat.zero_add] at hturns
  obtain ⟨b, dec, hb, hdec, hload⟩ := @storeList_store (buf.realloc (data2txt data).length fresh) data hlong 0
  refine ⟨dec, ?_, hload⟩
  rw [txt2data, hcount, hturns, hb]
  rw [map_some, bind_eq_bind, bind_some]
  dsimp only
  rw [hdec, bind_eq_bind, bind_some, toInt32_of_lt hlen]
  rfl

end

/-- Data whose length is an `int` survive the way into a TXT record and back, and the text is written inside of
its memory, unless there are 2^31 - 1 bytes in chunks of one. -/
theorem text_right (data : List UInt8) (hlen : data.length < 2147483648) :
    (∀ buf fresh buf' fresh', ∃ enc n dec, data2txtBuf buf fresh data = some (enc, n) ∧
      txt2data buf' fresh' enc n = some (some (dec, (data.length : Int))) ∧
      dec.loadList 0 data.length = some data) ∧
    ∀ clen, 1 ≤ clen → ¬(data.length = 2147483647 ∧ clen = 1) → ∀ buf fresh, ∃ enc n,
      cstringifyBuf buf fresh data clen = some (enc, n) ∧ enc.size = data.length + data.length / clen + 2 := by
  constructor
  · intro buf fresh buf' fresh'
    obtain ⟨enc, henc, -, hheld⟩ :=
      cstringifyBuf_fits (show 1 ≤ 255 by decide) hlen (fun h => absurd h.2 (by decide)) buf fresh
    obtain ⟨dec, hdec, hload⟩ := txt2data_data2txt hlen buf' fresh' hheld
    exact ⟨enc, _, dec, henc, hdec, hload⟩
  intro clen hclen hfits buf fresh
  obtain ⟨enc, henc, hsize, -⟩ := cstringifyBuf_fits hclen hlen hfits buf fresh
  exact ⟨enc, _, henc, hsize⟩

theorem text_right_zeros :
    (∀ buf fresh buf' fresh', ∃ enc n dec, data2txtBuf buf fresh (replicate 256 0) = some (enc, n) ∧
      txt2data buf' fresh' enc n = some (some (dec, ((replicate 256 (0 : UInt8)).length : Int))) ∧
      dec.loadList 0 (replicate 256 (0 : UInt8)).length = some (replicate 256 0)) ∧
    ∀ clen, 1 ≤ clen → ¬((replicate 256 (0 : UInt8)).length = 2147483647 ∧ clen = 1) → ∀ buf fresh, ∃ enc n,
      cstringifyBuf buf fresh (replicate 256 0) clen = some (enc, n) ∧
        enc.size = (replicate 256 (0 : UInt8)).length + (replicate 256 (0 : UInt8)).length / clen + 2 :=
  text_right (replicate 256 0) (by rw [length_replicate]; decide)

/-- The size of 2^31 - 1 bytes in chunks of one wraps to zero. -/
theorem longest_text_outside : cstringifyBuf ⟨0, fun _ => 0⟩ (fun _ => 0) (replicate 2147483647 0) 1 = none := by
  have hsize : cstringifySize (replicate 2147483647 (0 : UInt8)).length 1 = 0 := by
    rw [length_replicate]
    decide
  have htext : (cstringify (replicate 2147483647 (0 : UInt8)) 1) ≠ [] := by
    intro hnil
    have hlong := cstringifyLoop_length 1 _ (Nat.le_refl 1) (replicate 2147483647 (0 : UInt8)) le_rfl
    rw [← cstringify, hnil] at hlong
    exact absurd hlong (Nat.zero_ne_add_one _)
  rw [cstringifyBuf_eq (Nat.le_refl 1), hsize]
  cases hstore : (Block.realloc ⟨0, fun _ => 0⟩ 0 fun _ => (0 : UInt8)).storeList 0
      (cstringify (replicate 2147483647 0) 1) with
  | none => rfl
  | some b =>
    have hroom := (Block.size_of_storeList hstore).2 htext
    rw [Block.realloc_size, Nat.zero_add] at hroom
    exact absurd (eq_nil_of_length_eq_zero (Nat.le_zero.mp hroom)) htext

end Vde
