import Vde.OverNs
import Vde.Proofs.DnsPackets
import Vde.Proofs.NsRoundTrip

/-!
# Names of queries

The name that carries `n` bytes has four characters for each group of three, one in front, and a
length byte for each 63 of them; the suffix and the zero at the end follow. `dns_getfreespace`
keeps all this within the 255 bytes of a name. The server gets the `n` bytes out of the datagram
with the name unless `dns_fqdn2data` finds the suffix too early.
-/

namespace Vde

open List Option

/-- A string that is a name of the DNS: labels of one to 63 bytes, at most 255 bytes with the zero
at the end. -/
def LegalName (name : List UInt8) : Prop :=
  ∃ ls, name = labelForm ls ∧ (∀ l ∈ ls, IsLabel l) ∧ (labelForm ls).length + 1 ≤ 255

lemma dotted_bytes {ls : List (List UInt8)} (hls : ∀ l ∈ ls, IsLabel l) :
    (labelForm ls).length ≤ suffixlen (dotted ls) := by
  induction ls with
  | nil => exact Nat.zero_le _
  | cons l ls ih =>
    have hrec := ih (fun q hq => hls q (mem_cons_of_mem l hq))
    rw [labelForm_cons, length_cons, length_append]
    cases ls with
    | nil => exact le_rfl
    | cons l' ls =>
      rw [suffixlen] at hrec ⊢
      rw [dotted, length_append, length_cons]
      · omega
      · simp

lemma str2lbl_suffix {ls : List (List UInt8)} (hls : ∀ l ∈ ls, IsLabel l) (hdot : ∀ l ∈ ls, 0x2e ∉ l) : ∃ suffix,
    str2lbl (dotted ls) = some suffix ∧ cString suffix = labelForm ls := by
  by_cases hne : ls = []
  · subst hne
    exact ⟨[0, 0], rfl, rfl⟩
  · exact ⟨_, str2lbl_dotted hne hls hdot, cString_append_zero (labelForm_nonzero hls) []⟩

lemma wire_bound {S n g : Nat} (hroom : n + 189 * S / 256 ≤ 183) (hg : 3 * g ≤ n + 2) :
    4 * g + 1 + (4 * g + 1 + 62) / 63 + S + 1 ≤ 255 := by
  omega

lemma dnsGetfreespaceInt_room {S n : Nat} {pkt : DnsPkt} (hS : S ≤ 11362347)
    (hpos : 0 < dnsGetfreespaceInt S pkt .query) (hn : (n : Int) ≤ dnsGetfreespaceInt S pkt .query) :
    n + 189 * S / 256 ≤ 183 := by
  have hmul : Int.tdiv (toInt32 (189 * (S : Int))) 256 = (189 * S / 256 : Nat) := by
    rw [toInt32_eq (by omega) (by omega), Int.tdiv_eq_ediv_of_nonneg (by omega)]
    omega
  rw [dnsGetfreespaceInt] at hpos hn
  simp only [hmul] at hpos hn
  split at hn
  · omega
  split at hn
  · omega
  · omega

/-! ## Characters -/

lemma EncodedBlock.readBytes_eq {data : List UInt8} {n : Nat} {e e' : Block UInt8} (h : EncodedBlock data n e)
    (h' : EncodedBlock data n e') :
    readBytes e.elems 0 (4 * groups n + 1) = readBytes e'.elems 0 (4 * groups n + 1) := by
  refine readBytes_congr fun i hi => ?_
  rw [Nat.zero_add]
  by_cases h0 : i = 0
  · rw [h0, h.cut, h'.cut]
  rw [h.elem (Nat.pos_of_ne_zero h0) hi, h'.elem (Nat.pos_of_ne_zero h0) hi]

/-- What `nstx_encode` makes of `p` and the bytes behind it. -/
def nsChars (p : List UInt8) (behind : UInt8 × UInt8) : List UInt8 :=
  ((nstxEncode ⟨0, fun _ => 0⟩ (fun _ => 0) (p ++ [behind.1, behind.2]) p.length).map fun e =>
    readBytes e.elems 0 (4 * groups p.length + 1)).getD []

def NsQuery.chars (q : NsQuery) : List UInt8 := nsChars q.fragment q.behind

section

variable {p : List UInt8} {behind : UInt8 × UInt8}

lemma EncodedBlock.nsChars_eq {e : Block UInt8} (h : EncodedBlock (p ++ [behind.1, behind.2]) p.length e)
    (hn : p.length ≤ 1610612733) : nsChars p behind = readBytes e.elems 0 (4 * groups p.length + 1) := by
  obtain ⟨e', he', hblock⟩ := @nstxEncode_eq ⟨0, fun _ => 0⟩ (fun _ => 0) (p ++ [behind.1, behind.2]) p.length
    (length_with_tail p behind.1 behind.2) hn
  rw [nsChars, he', map_some, getD_some]
  exact hblock.readBytes_eq h

lemma nsChars_encoded (hn : p.length ≤ 1610612733) : ∃ e, EncodedBlock (p ++ [behind.1, behind.2]) p.length e ∧
    nsChars p behind = readBytes e.elems 0 (4 * groups p.length + 1) := by
  obtain ⟨e, -, hblock⟩ := @nstxEncode_eq ⟨0, fun _ => 0⟩ (fun _ => 0) (p ++ [behind.1, behind.2]) p.length
    (length_with_tail p behind.1 behind.2) hn
  exact ⟨e, hblock, hblock.nsChars_eq hn⟩

lemma nsChars_mem (hn : p.length ≤ 1610612733) : ∀ b ∈ nsChars p behind, b ∈ nsMap := by
  obtain ⟨e, hblock, heq⟩ := @nsChars_encoded p behind hn
  intro b hb
  rw [heq] at hb
  obtain ⟨i, hi, rfl⟩ := mem_map.mp hb
  rw [Nat.zero_add]
  exact hblock.mem (mem_range.mp hi)

lemma nsChars_length (hn : p.length ≤ 1610612733) : (nsChars p behind).length = 4 * groups p.length + 1 := by
  obtain ⟨e, -, heq⟩ := @nsChars_encoded p behind hn
  rw [heq, readBytes_length]

variable {ls : List (List UInt8)}

/-- The name of a query has the labels of the characters in front of those of the suffix. -/
lemma queryName_labels (hls : ∀ l ∈ ls, IsLabel l) (hdot : ∀ l ∈ ls, 0x2e ∉ l) (hn : p.length ≤ 1610612733) : ∃ ds,
    (∀ l ∈ ds, IsLabel l) ∧ cString (data2lbl (nsChars p behind)) = labelForm ds ∧ (labelForm ds).length =
    4 * groups p.length + 1 + (4 * groups p.length + 1 + 62) / 63 ∧ ∀ buf fresh,
    queryName buf fresh (dotted ls) (p ++ [behind.1, behind.2]) p.length = some (labelForm (ds ++ ls)) := by
  obtain ⟨suffix, hstr, hsuffix⟩ := str2lbl_suffix hls hdot
  have hchars := @nsChars_length p behind hn
  obtain ⟨ds, hform, hflat, hds⟩ := data2lbl_labels fun b hb => nsMap_ne_zero (@nsChars_mem p behind hn b hb)
  have hlbl : cString (data2lbl (nsChars p behind)) = labelForm ds := by
    rw [hform]
    exact cString_append_zero (labelForm_nonzero hds) []
  refine ⟨ds, hds, hlbl, ?_, ?_⟩
  · have h := congrArg length hform
    rw [data2lbl, cstringify, cstringifyLoop_length 63 _ (by decide) _ le_rfl, hchars, length_append,
      length_singleton] at h
    omega
  intro buf fresh
  obtain ⟨e, he, hblock⟩ := @nstxEncode_eq buf fresh (p ++ [behind.1, behind.2]) p.length
    (length_with_tail p behind.1 behind.2) hn
  rw [queryName, hstr, he]
  simp only [bind_eq_bind, bind_some]
  rw [hblock.strlen, bind_some, ← hblock.nsChars_eq hn, dnsData2fqdn, hlbl, hsuffix, labelForm_append]
  rfl

/-! ## From the client to the server -/

lemma strdupBlock_elems (s : List UInt8) (i : Nat) : (strdupBlock s).elems i = (s ++ [0]).getD i 0 := rfl

lemma strdupBlock_size (s : List UInt8) : (strdupBlock s).size = s.length + 1 := rfl

lemma encodedBlock_strdup (hn : p.length ≤ 1610612733) :
    EncodedBlock (p ++ [behind.1, behind.2]) p.length (strdupBlock (nsChars p behind)) := by
  obtain ⟨e, hblock, heq⟩ := @nsChars_encoded p behind hn
  have hlen := @nsChars_length p behind hn
  have hsame : ∀ i < 4 * groups p.length + 1, (strdupBlock (nsChars p behind)).elems i = e.elems i := by
    intro i hi
    rw [strdupBlock_elems, getD_append _ _ _ _ (by omega), getD_eq_getElem _ _ (by omega)]
    rw [getElem_of_eq heq, readBytes_getElem, Nat.zero_add]
  constructor
  · rw [strdupBlock_size]
    omega
  · rw [hsame 0 (by omega), hblock.cut]
  · intro g hg0 hg q hq
    rw [hsame _ (by omega), hblock.chars g hg0 hg q hq]
  · rw [strdupBlock_elems, getD_append_right _ _ _ _ (by omega), hlen, Nat.sub_self]
    rfl

/-- A query whose characters come back from its name brings its fragment to the server. -/
lemma query_comes {q : NsQuery} (hls : ∀ l ∈ ls, IsLabel l) (hdot : ∀ l ∈ ls, 0x2e ∉ l)
    (hroom : q.fragment.length + 189 * suffixlen (dotted ls) / 256 ≤ 183)
    (hback : recoveredData (dotted ls) q.chars = some q.chars) (mem : QueryMem) (list : List NstxItem) :
    (q.datagram (dotted ls) mem).bind (nstxGetpacket (dotted ls) mem list) =
    some (nstxHandlepacket list q.fragment mem.now mem.check) := by
  obtain ⟨ds, hds, hlbl, hlen, hname⟩ := @queryName_labels q.fragment q.behind ls hls hdot (by omega)
  obtain ⟨suffix, hstr, hsuffix⟩ := str2lbl_suffix hls hdot
  have hg := groups_bounds q.fragment.length
  have hbound := wire_bound hroom hg.2
  have hdotted := dotted_bytes hls
  have hall : ∀ l ∈ ds ++ ls, IsLabel l := fun l hl => (mem_append.mp hl).elim (hds l) (hls l)
  have hne : ds ++ ls ≠ [] := by
    intro hnil
    have hzero : (labelForm ds).length = 0 := by rw [(append_eq_nil_iff.mp hnil).1]; rfl
    omega
  have hsize : (labelForm (ds ++ ls)).length ≤ 254 := by
    rw [labelForm_append, length_append]
    omega
  have hbuilt : Built (dnsAddquery (dnsSetid (dnsSettype dnsAlloc .query) q.id) (labelForm (ds ++ ls))) :=
    .addquery _ _ ⟨hne, hall⟩ (.setid _ _ (.settype _ _ .alloc))
  obtain ⟨turns, hextract⟩ := hbuilt.extract (cons_ne_nil _ _) (show 1 ≤ 255 by decide) (Nat.zero_le _)
    (show 12 + ((labelForm (ds ++ ls)).length + 1 + 4 + 0) + 0 ≤ 16383 by omega)
  rw [recoveredData, hstr, bind_some, dnsData2fqdn, NsQuery.chars, hlbl, hsuffix, ← labelForm_append] at hback
  obtain ⟨d, hdecode, hd, hbytes⟩ := @nstxDecode_eq mem.decoded _ mem.freshDecoded mem.revmap _ _
    (@encodedBlock_strdup q.fragment q.behind (by omega)) (by omega)
  have hload : d.loadList 0 q.fragment.length = some q.fragment := by
    refine Block.loadList_eq (by omega) fun k hk => ?_
    rw [Nat.zero_add, hbytes k hk, getD_append _ _ _ _ hk, getD_eq_getElem _ _ hk]
  rw [NsQuery.datagram, hname, map_some, bind_some, nstxGetpacket, hextract]
  simp only [dnsAddquery, dnsSetid, dnsSettype, dnsAlloc, nil_append, hstr, bind_eq_bind, bind_some,
    cString_append_zero (labelForm_nonzero hall), hback, hdecode, Int.toNat_natCast, hload,
    if_neg (Int.not_lt.mpr (Int.natCast_nonneg q.fragment.length))]

end

/-- Every query that the client makes within the free space has a legal name, as long as the
product with the length of the suffix fits an `int`. -/
theorem query_name_legal (ls : List (List UInt8)) (hls : ∀ l ∈ ls, IsLabel l)
    (hdot : ∀ l ∈ ls, 0x2e ∉ l) (hsuf : suffixlen (dotted ls) ≤ 11362347) (pkt : DnsPkt)
    (hpos : 0 < dnsGetfreespaceInt (toInt32 (suffixlen (dotted ls))) pkt .query) (p : List UInt8)
    (hn : (p.length : Int) ≤ dnsGetfreespaceInt (toInt32 (suffixlen (dotted ls))) pkt .query)
    (buf : Block UInt8) (fresh : Nat → UInt8) (x y : UInt8) :
    ∃ name, queryName buf fresh (dotted ls) (p ++ [x, y]) p.length = some name ∧ LegalName name := by
  rw [toInt32_of_lt (by omega)] at hpos hn
  have hroom := dnsGetfreespaceInt_room hsuf hpos hn
  have hg := groups_bounds p.length
  have hbound := wire_bound hroom hg.2
  have hdotted := dotted_bytes hls
  obtain ⟨ds, hds, -, hlen, hname⟩ := @queryName_labels p (x, y) ls hls hdot (by omega)
  refine ⟨_, hname buf fresh, ds ++ ls, rfl, fun l hl => (mem_append.mp hl).elim (hds l) (hls l), ?_⟩
  rw [labelForm_append, length_append, hlen]
  omega

lemma isLabel_a : IsLabel [97] := by
  refine ⟨by decide, by decide, ?_⟩
  intro b hb
  rw [mem_singleton.mp hb]
  decide

theorem query_name_legal_small : ∃ name,
    queryName ⟨0, fun _ => 0⟩ (fun _ => 0) (dotted [[97]]) ([1, 2, 3] ++ [0, 0]) 3 = some name ∧ LegalName name :=
  query_name_legal [[97]]
    (by intro l hl; rw [mem_singleton] at hl; subst hl; exact isLabel_a)
    (by decide) (by decide) dnsAlloc (by decide) [1, 2, 3] (by decide) ⟨0, fun _ => 0⟩ (fun _ => 0) 0 0

lemma suffixlen_replicate (k : Nat) : suffixlen (dotted (replicate (k + 1) [97])) = 2 * (k + 1) := by
  induction k with
  | zero => rfl
  | succ k ih =>
    rw [suffixlen] at ih ⊢
    have hform : dotted (replicate (k + 1 + 1) [97]) =
        [97] ++ 0x2e :: dotted (replicate (k + 1) [97]) := rfl
    rw [hform, length_append, length_singleton, length_cons]
    omega

lemma labelForm_replicate (k : Nat) : (labelForm (replicate k [97])).length = 2 * k := by
  induction k with
  | zero => rfl
  | succ k ih =>
    rw [replicate_succ, labelForm_cons, length_cons, length_append, ih,
      length_singleton]
    omega

lemma suffix_in_name {buf : Block UInt8} {fresh : Nat → UInt8} {suf p suffix name : List UInt8} {n : Nat}
    (hstr : str2lbl suf = some suffix) (h : queryName buf fresh suf p n = some name) :
    (cString suffix).length ≤ name.length := by
  rw [queryName, hstr, bind_eq_bind, bind_some] at h
  obtain ⟨e, -, h⟩ := bind_eq_some_iff.mp h
  obtain ⟨len, -, h⟩ := bind_eq_some_iff.mp h
  rw [← some.inj h, dnsData2fqdn, length_append]
  exact Nat.le_add_left _ _

lemma long_suffix {k : Nat} (hk : 255 ≤ k)
    (hspace : 1 ≤ dnsGetfreespaceInt (toInt32 (2 * k : Nat)) dnsAlloc .query) :
    (∀ l ∈ replicate k [(97 : UInt8)], IsLabel l ∧ 0x2e ∉ l) ∧
    1 ≤ dnsGetfreespaceInt (toInt32 (suffixlen (dotted (replicate k [97])))) dnsAlloc .query ∧ ¬∃ name,
    queryName ⟨0, fun _ => 0⟩ (fun _ => 0) (dotted (replicate k [97])) ([0] ++ [0, 0]) 1 = some name ∧
    LegalName name := by
  have hls : ∀ l ∈ replicate k [(97 : UInt8)], IsLabel l ∧ 0x2e ∉ l := by
    intro l hl
    rw [eq_of_mem_replicate hl]
    exact ⟨isLabel_a, by decide⟩
  refine ⟨hls, ?_, ?_⟩
  · obtain ⟨j, rfl⟩ := Nat.exists_eq_add_of_le' (show 1 ≤ k by omega)
    rw [suffixlen_replicate j]
    exact hspace
  intro h
  obtain ⟨name, hname, ns, hform, -, hlegal⟩ := h
  obtain ⟨suffix, hstr, hsuffix⟩ :=
    str2lbl_suffix (fun l hl => (hls l hl).1) (fun l hl => (hls l hl).2)
  have hlen := suffix_in_name hstr hname
  rw [hsuffix, labelForm_replicate, hform] at hlen
  omega

/-- A suffix of 5681301 labels of one byte: the products are too large for an `int`, and space is
reported for data under a suffix that no legal name can end with. -/
theorem long_suffix_name : (∀ l ∈ replicate 5681301 [(97 : UInt8)], IsLabel l ∧ 0x2e ∉ l) ∧
    1 ≤ dnsGetfreespaceInt (toInt32 (suffixlen (dotted (replicate 5681301 [97])))) dnsAlloc .query ∧ ¬∃ name,
    queryName ⟨0, fun _ => 0⟩ (fun _ => 0) (dotted (replicate 5681301 [97])) ([0] ++ [0, 0]) 1 = some name ∧
    LegalName name :=
  long_suffix (by decide) (by decide)

end Vde
