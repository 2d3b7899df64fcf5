import Mathlib.Data.List.TakeWhile
import Vde.Dns

/-!
# Names that carry data

Data is cut into labels of up to 63 bytes and followed by the label form of the suffix. The way
back looks for the first place where the label form of the suffix occurs and takes the labels in
front of it. That is the place where the suffix was appended unless a label of the data, or its
end together with the suffix, contains the same bytes.
-/

namespace Vde

open List

def labelForm (ls : List (List UInt8)) : List UInt8 :=
  (ls.map (fun l => UInt8.ofNat l.length :: l)).flatten

structure IsLabel (l : List UInt8) : Prop where
  pos : 1 ≤ l.length
  short : l.length ≤ 63
  nonzero : ∀ b ∈ l, b ≠ 0

def dotted : List (List UInt8) → List UInt8
  | [] => []
  | [l] => l
  | l :: ls => l ++ 0x2e :: dotted ls

@[simp] lemma labelForm_nil : labelForm [] = [] := rfl

@[simp] lemma labelForm_cons (l : List UInt8) (ls : List (List UInt8)) :
    labelForm (l :: ls) = UInt8.ofNat l.length :: (l ++ labelForm ls) := by
  simp [labelForm]

lemma labelForm_append (ls ls' : List (List UInt8)) : labelForm (ls ++ ls') = labelForm ls ++ labelForm ls' := by
  simp [labelForm]

lemma IsLabel.length_toNat {l : List UInt8} (h : IsLabel l) : (UInt8.ofNat l.length).toNat = l.length := by
  have := h.short
  rw [UInt8.toNat_ofNat']
  omega

variable {ls : List (List UInt8)}

lemma labelForm_nonzero (h : ∀ l ∈ ls, IsLabel l) : ∀ b ∈ labelForm ls, b ≠ 0 := by
  induction ls with
  | nil => simp
  | cons l ls ih =>
    have hl := h l (by simp)
    intro b hb
    rw [labelForm_cons, mem_cons, mem_append] at hb
    rcases hb with rfl | hb | hb
    · intro hz
      have hlen := hl.length_toNat
      have hpos := hl.pos
      rw [hz] at hlen
      simp at hlen
      omega
    · exact hl.nonzero b hb
    · exact ih (fun l' hl' => h l' (by simp [hl'])) b hb

lemma cString_append_zero {bytes : List UInt8} (h : ∀ b ∈ bytes, b ≠ 0) (rest : List UInt8) :
    cString (bytes ++ 0 :: rest) = bytes := by
  rw [cString, takeWhile_append_of_pos]
  · simp
  intro b hb
  simpa using h b hb

lemma cString_nonzero {bytes : List UInt8} (h : ∀ b ∈ bytes, b ≠ 0) : cString bytes = bytes := by
  rw [cString, takeWhile_eq_self_iff]
  intro b hb
  simpa using h b hb

lemma str2lblLoop_dotted (hne : ls ≠ []) (hls : ∀ l ∈ ls, IsLabel l)
    (hdot : ∀ l ∈ ls, 0x2e ∉ l) (buf : List UInt8) (fuel : Nat) (hfuel : ls.length ≤ fuel) :
    str2lblLoop fuel (dotted ls) buf = some (buf ++ labelForm ls ++ [0]) := by
  induction ls generalizing buf fuel with
  | nil => exact absurd rfl hne
  | cons l ls ih =>
    have hl := hls l (by simp)
    have hnodot : ∀ b ∈ l, (b == 0x2e) = false := by
      intro b hb
      simp only [beq_eq_false_iff_ne]
      intro he
      exact hdot l (by simp) (he ▸ hb)
    obtain ⟨fuel, rfl⟩ : ∃ f, fuel = f + 1 := ⟨fuel - 1, by simp at hfuel; omega⟩
    cases ls with
    | nil =>
      have hfind : l.findIdx? (· == 0x2e) = none := by
        rw [findIdx?_eq_none_iff]
        exact hnodot
      simp [dotted, str2lblLoop, hfind]
    | cons l' ls =>
      have hfind : (l ++ 0x2e :: dotted (l' :: ls)).findIdx? (· == 0x2e) = some l.length := by
        rw [findIdx?_eq_some_iff_getElem]
        refine ⟨by simp, by simp, ?_⟩
        intro j hj
        rw [getElem_append_left hj, hnodot _ (getElem_mem hj)]
        simp
      have hlen : ¬(63 < l.length ∨ l.length = 0) := by
        have h1 := hl.pos
        have h2 := hl.short
        omega
      have hrec := ih (by simp) (fun q hq => hls q (by simp [hq])) (fun q hq => hdot q (by simp [hq]))
        (buf ++ UInt8.ofNat l.length :: l) fuel (by simp at hfuel ⊢; omega)
      have hdrop : (l ++ 0x2e :: dotted (l' :: ls)).drop (l.length + 1) = dotted (l' :: ls) := by
        rw [drop_append, drop_of_length_le (by omega)]
        simp
      have htake : (l ++ 0x2e :: dotted (l' :: ls)).take l.length = l := take_left' rfl
      rw [dotted, str2lblLoop, hfind]
      · dsimp only
        rw [if_neg hlen, hdrop, htake, hrec]
        simp
      · simp

lemma dotted_length (ls : List (List UInt8)) (hls : ∀ l ∈ ls, IsLabel l) : ls.length ≤ (dotted ls).length + 1 := by
  induction ls with
  | nil => simp
  | cons l ls ih =>
    have hl := (hls l (by simp)).pos
    cases ls with
    | nil => simp
    | cons l' ls =>
      have hrec := ih (fun q hq => hls q (by simp [hq]))
      rw [dotted]
      · simp only [length_cons, length_append] at hrec ⊢
        omega
      · simp

lemma str2lbl_dotted (hne : ls ≠ []) (hls : ∀ l ∈ ls, IsLabel l)
    (hdot : ∀ l ∈ ls, 0x2e ∉ l) : str2lbl (dotted ls) = some (labelForm ls ++ [0]) := by
  rw [str2lbl, str2lblLoop_dotted hne hls hdot [] _ (dotted_length ls hls)]
  rfl

lemma cstringifyLoop_labels (clen : Nat) (hclen : 1 ≤ clen) (fuel : Nat) (d : List UInt8)
    (hfuel : d.length ≤ fuel) : ∃ ls : List (List UInt8), cstringifyLoop clen fuel d = labelForm ls ++ [0] ∧
    ls.flatten = d ∧ ∀ l ∈ ls, 1 ≤ l.length ∧ l.length ≤ clen := by
  induction fuel generalizing d with
  | zero =>
    have hd : d = [] := eq_nil_of_length_eq_zero (by omega)
    subst hd
    exact ⟨[], rfl, rfl, by simp⟩
  | succ fuel ih =>
    rw [cstringifyLoop]
    by_cases hd : d.length = 0
    · rw [if_pos hd]
      exact ⟨[], rfl, (eq_nil_of_length_eq_zero hd).symm, by simp⟩
    rw [if_neg hd]
    have hllen : (if clen < d.length then clen else d.length) = min clen d.length := by
      split <;> omega
    have htake : (d.take (min clen d.length)).length = min clen d.length := by
      rw [length_take]
      omega
    obtain ⟨ls, hform, hflat, hlen⟩ := ih (d.drop (min clen d.length)) (by
      rw [length_drop]
      omega)
    refine ⟨d.take (min clen d.length) :: ls, ?_, ?_, ?_⟩
    · simp only [hllen, labelForm_cons, htake, hform, cons_append, append_assoc]
    · rw [flatten_cons, hflat, take_append_drop]
    intro l hl
    rw [mem_cons] at hl
    rcases hl with rfl | hl
    · omega
    · exact hlen l hl

lemma cstringifyLoop_length (clen fuel : Nat) (hclen : 1 ≤ clen) (d : List UInt8) (hfuel : d.length ≤ fuel) :
    (cstringifyLoop clen fuel d).length = d.length + (d.length + (clen - 1)) / clen + 1 := by
  induction fuel generalizing d with
  | zero =>
    have hd : d = [] := eq_nil_of_length_eq_zero (by omega)
    rw [hd, cstringifyLoop, length_nil, Nat.div_eq_of_lt (by omega)]
    rfl
  | succ fuel ih =>
    rw [cstringifyLoop]
    by_cases hd : d.length = 0
    · rw [if_pos hd, hd, Nat.div_eq_of_lt (by omega)]
      rfl
    rw [if_neg hd]
    dsimp only
    rw [length_append, length_cons]
    by_cases hlong : clen < d.length
    · have hdiv : (d.length + (clen - 1)) / clen = (d.length - clen + (clen - 1)) / clen + 1 := by
        rw [← Nat.add_div_right _ (by omega)]
        congr 1
        omega
      rw [if_pos hlong, ih _ (by rw [length_drop]; omega), length_take, length_drop,
        hdiv, Nat.min_eq_left (by omega)]
      omega
    have hdiv : (d.length + (clen - 1)) / clen = 1 := by
      apply Nat.div_eq_of_lt_le
      · omega
      · omega
    rw [if_neg hlong, ih _ (by rw [length_drop]; omega), length_take, length_drop,
      hdiv, Nat.sub_self, Nat.min_self, Nat.div_eq_of_lt (by omega)]

lemma data2lbl_labels {d : List UInt8} (hd : ∀ b ∈ d, b ≠ 0) : ∃ ls : List (List UInt8), data2lbl d =
    labelForm ls ++ [0] ∧ ls.flatten = d ∧ ∀ l ∈ ls, IsLabel l := by
  obtain ⟨ls, hform, hflat, hlen⟩ :=
    cstringifyLoop_labels 63 (by decide) d.length d (Nat.le_refl _)
  refine ⟨ls, hform, hflat, fun l hl => ⟨(hlen l hl).1, (hlen l hl).2, fun b hb => hd b ?_⟩⟩
  rw [← hflat]
  exact mem_flatten_of_mem hl hb

lemma lbl2dataLoop_labels (pre ls : List (List UInt8)) (rest : List UInt8) (len fuel : Nat)
    (hls : ∀ l ∈ ls, IsLabel l) (hpre : (labelForm pre).length ≤ len) (hlen : len ≤ (labelForm (pre ++ ls)).length)
    (hfuel : len < (labelForm pre).length + fuel) : ∃ k ≤ ls.length,
    lbl2dataLoop (labelForm (pre ++ ls) ++ rest) len fuel (labelForm pre).length = (ls.take k).flatten ∧
    (k = ls.length ↔ len = (labelForm (pre ++ ls)).length) := by
  induction ls generalizing pre fuel with
  | nil =>
    obtain ⟨fuel, rfl⟩ : ∃ f, fuel = f + 1 := ⟨fuel - 1, by omega⟩
    rw [append_nil] at hlen ⊢
    refine ⟨0, by simp, ?_, by simp; omega⟩
    rw [lbl2dataLoop]
    rw [if_pos (by omega)]
    rfl
  | cons l ls ih =>
    have hl := hls l (by simp)
    have hnum := hl.length_toNat
    obtain ⟨fuel, rfl⟩ : ∃ f, fuel = f + 1 := ⟨fuel - 1, by omega⟩
    have hsplit : labelForm (pre ++ l :: ls) ++ rest =
        labelForm pre ++ (UInt8.ofNat l.length :: (l ++ (labelForm ls ++ rest))) := by
      rw [labelForm_append, labelForm_cons]
      simp
    have hbyte : (labelForm (pre ++ l :: ls) ++ rest).getD (labelForm pre).length 0 =
        UInt8.ofNat l.length := by
      rw [hsplit]
      simp
    have htotal : (labelForm (pre ++ l :: ls)).length =
        (labelForm pre).length + (1 + l.length + (labelForm ls).length) := by
      rw [labelForm_append, labelForm_cons]
      simp
      omega
    have hshort := hl.short
    have hpos := hl.pos
    rw [lbl2dataLoop]
    rw [hbyte, hnum]
    by_cases hfit : (labelForm pre).length + 1 + l.length ≤ len
    · rw [if_neg (by omega), if_neg (by omega)]
      have hnext : labelForm pre ++ UInt8.ofNat l.length :: l = labelForm (pre ++ [l]) := by
        rw [labelForm_append]
        simp
      have hnextlen : (labelForm (pre ++ [l])).length = (labelForm pre).length + 1 + l.length := by
        rw [← hnext]
        simp
        omega
      have hassoc : pre ++ l :: ls = pre ++ [l] ++ ls := by simp
      obtain ⟨k, hk, hloop, hall⟩ := ih (pre ++ [l]) fuel (fun q hq => hls q (by simp [hq]))
        (by omega) (by rw [← hassoc]; exact hlen) (by omega)
      rw [← hassoc, hnextlen] at hloop
      rw [← hassoc] at hall
      refine ⟨k + 1, by simpa using hk, ?_, by simpa using hall⟩
      have hdrop : (labelForm (pre ++ l :: ls) ++ rest).drop ((labelForm pre).length + 1) =
          l ++ (labelForm ls ++ rest) := by
        rw [hsplit, drop_append, drop_of_length_le (by omega)]
        simp
      rw [hloop, hdrop, take_left' rfl]
      simp
    rw [if_pos (by omega)]
    exact ⟨0, by simp, by simp, by simp; omega⟩

lemma lbl2data_labels (hls : ∀ l ∈ ls, IsLabel l) (rest : List UInt8)
    {len : Nat} (hlen : len ≤ (labelForm ls).length) :
    cString (lbl2data (labelForm ls ++ rest) len) = ls.flatten ↔ len = (labelForm ls).length := by
  obtain ⟨k, hk, hloop, hall⟩ := lbl2dataLoop_labels [] ls rest len (len + 1) hls (Nat.zero_le _)
    hlen (by simp)
  simp only [nil_append, labelForm_nil, length_nil] at hloop hall
  have hnz : ∀ b ∈ (ls.take k).flatten, b ≠ 0 := by
    intro b hb
    obtain ⟨l, hl, hbl⟩ := mem_flatten.mp hb
    exact (hls l (mem_of_mem_take hl)).nonzero b hbl
  rw [lbl2data, hloop, cString_nonzero hnz, ← hall]
  constructor
  · intro heq
    by_contra hne
    -- a label that was left out is not empty
    have hsum : (ls.take k).flatten.length + (ls.drop k).flatten.length = ls.flatten.length := by
      rw [← length_append, ← flatten_append, take_append_drop]
    obtain ⟨l, ls', hdrop⟩ : ∃ l ls', ls.drop k = l :: ls' :=
      exists_cons_of_ne_nil (by simp; omega)
    have hl : 1 ≤ l.length := (hls l (mem_of_mem_drop (by rw [hdrop]; simp))).pos
    rw [hdrop, flatten_cons, length_append, heq] at hsum
    omega
  intro h
  rw [h, take_length]

lemma strstr_eq_some {h n : List UInt8} {off : Nat} : strstr h n = some off ↔ n <+: h.drop off ∧ off ≤ h.length ∧
    ∀ i < off, ¬n <+: h.drop i := by
  rw [strstr, find?_range_eq_some]
  simp only [mem_range, isPrefixOf_iff_prefix, Bool.not_eq_true']
  constructor
  · rintro ⟨hp, hle, hall⟩
    refine ⟨hp, by omega, fun i hi hpi => ?_⟩
    have := hall i hi
    rw [← isPrefixOf_iff_prefix] at hpi
    simp [hpi] at this
  rintro ⟨hp, hle, hall⟩
  refine ⟨hp, by omega, fun i hi => ?_⟩
  rw [Bool.eq_false_iff]
  intro hpi
  exact hall i hi ( isPrefixOf_iff_prefix.mp hpi)

/-- The suffix, in label form, already occurs in the name before the place where it is
appended. -/
def SuffixInside (ls : List (List UInt8)) (d : List UInt8) : Prop :=
  ∃ i < (cString (data2lbl d)).length, labelForm ls <+: (cString (data2lbl d) ++ labelForm ls).drop i

instance (ls : List (List UInt8)) (d : List UInt8) : Decidable (SuffixInside ls d) :=
  inferInstanceAs (Decidable (∃ i < _, labelForm ls <+: List.drop i _))

/-- What `dns_fqdn2data` makes of the name that `dns_data2fqdn` has built, after
`dns_setsuffix`. -/
def recoveredData (suf d : List UInt8) : Option (List UInt8) :=
  (str2lbl suf).bind (fun suffix => dnsFqdn2data suffix (dnsData2fqdn suffix d))

lemma recoveredData_iff (ls : List (List UInt8)) (d : List UInt8) (hne : ls ≠ []) (hls : ∀ l ∈ ls, IsLabel l)
    (hdot : ∀ l ∈ ls, 0x2e ∉ l) (hd : d ≠ []) (hmap : ∀ b ∈ d, b ∈ nsMap) : recoveredData (dotted ls) d = some d ↔
    ¬SuffixInside ls d := by
  have hmap0 : ∀ b ∈ nsMap, b ≠ 0 := by decide +kernel
  obtain ⟨ds, hform, hflat, hds⟩ := data2lbl_labels (fun b hb => hmap0 b (hmap b hb))
  have hlbl : cString (data2lbl d) = labelForm ds := by
    rw [hform]
    exact cString_append_zero (labelForm_nonzero hds) []
  have hsuf : cString (labelForm ls ++ [0]) = labelForm ls :=
    cString_append_zero (labelForm_nonzero hls) []
  have hpos : 0 < (labelForm ds).length := by
    obtain ⟨l, ds', rfl⟩ : ∃ l ds', ds = l :: ds' := by
      apply exists_cons_of_ne_nil
      rintro rfl
      exact hd hflat.symm
    simp
  rw [recoveredData, str2lbl_dotted hne hls hdot, Option.bind_some, dnsFqdn2data, dnsData2fqdn, hsuf,
    SuffixInside, hlbl]
  -- the suffix does occur, at its own place at the latest
  obtain ⟨off, hoff⟩ : ∃ off, strstr (labelForm ds ++ labelForm ls) (labelForm ls) = some off := by
    by_contra hnone
    simp only [not_exists] at hnone
    have h := Option.eq_none_iff_forall_not_mem.mpr hnone
    rw [strstr, find?_eq_none] at h
    refine h (labelForm ds).length ?_ (by simp)
    rw [mem_range, length_append]
    omega
  rw [hoff]
  dsimp only
  obtain ⟨hpre, hle, hfirst⟩ := strstr_eq_some.mp hoff
  have hoffle : off ≤ (labelForm ds).length := by
    by_contra hgt
    exact hfirst (labelForm ds).length (by omega) (by simp)
  have hback := lbl2data_labels hds (labelForm ls) hoffle
  rw [hflat] at hback
  constructor
  · intro hsome
    rintro ⟨i, hi, hpi⟩
    by_cases h0 : off = 0
    · rw [if_neg (by omega)] at hsome
      exact absurd hsome (by simp)
    rw [if_pos h0, Option.some.injEq, hback] at hsome
    exact hfirst i (by omega) hpi
  intro hout
  have hend : off = (labelForm ds).length := by
    by_contra hne'
    exact hout ⟨off, by omega, hpre⟩
  rw [if_pos (by omega), hback.mpr hend]

/-- The data comes back from its name exactly if the suffix does not occur too early in it. -/
theorem dns_name_roundtrip (ls : List (List UInt8)) (d : List UInt8) (hne : ls ≠ []) (hls : ∀ l ∈ ls, IsLabel l)
    (hdot : ∀ l ∈ ls, 0x2e ∉ l) (hd : d ≠ []) (hmap : ∀ b ∈ d, b ∈ nsMap) : recoveredData (dotted ls) d = some d ↔
    ¬SuffixInside ls d :=
  recoveredData_iff ls d hne hls hdot hd hmap

theorem dns_name_roundtrip_abd : recoveredData (dotted [[97, 98, 99]]) [97, 98, 100] = some [97, 98, 100] :=
  (dns_name_roundtrip [[97, 98, 99]] [97, 98, 100] (by simp)
    (by intro l hl; rw [mem_singleton] at hl; subst hl; exact ⟨by decide, by decide, by decide +kernel⟩)
    (by decide +kernel) (by decide) (by decide +kernel)).mpr (by decide +kernel)

/-- The data `abc` under the suffix `abc` is taken for the suffix itself. -/
theorem dns_name_lost : (∀ b ∈ ([97, 98, 99] : List UInt8), b ∈ nsMap) ∧ IsLabel [97, 98, 99] ∧
    recoveredData (dotted [[97, 98, 99]]) [97, 98, 99] ≠ some [97, 98, 99] := by
  refine ⟨by decide +kernel, ⟨by decide, by decide, by decide +kernel⟩, by decide +kernel⟩

end Vde
