import Vde.Proofs.NsNames
import Vde.Proofs.Reassembly

/-!
# Frames through the tunnel

Both ends send the fragments of a frame in order, so the receiver has an item for it whose chunks
are numbered from zero. From the client to the server a frame gets through unless its length is a
multiple of what a query holds, it needs more than sixteen queries, its identifier is zero in
twelve bits or the suffix stands too early in the name of a query. The same identifier loses every
4096th frame in the other direction.
-/

namespace Vde

open List

def numbered : Nat → List (List UInt8) → List Clist
  | _, [] => []
  | k, p :: ps => ⟨k, p⟩ :: numbered (k + 1) ps

lemma insertBehind_numbered (k : Nat) (ps : List (List UInt8)) (p : List UInt8) :
    insertBehind ⟨k + ps.length, p⟩ (numbered k ps) = numbered k (ps ++ [p]) := by
  induction ps generalizing k with
  | nil => rfl
  | cons q ps ih =>
    have hk : k + (q :: ps).length = k + 1 + ps.length := by
      rw [length_cons]
      omega
    rw [numbered, hk, insertBehind, if_pos (show k < k + 1 + ps.length by omega), ih]
    rfl

lemma findSequence_numbered (k : Nat) (ps : List (List UInt8)) :
    findSequence k (numbered k ps) = k + ps.length := by
  induction ps generalizing k with
  | nil => rfl
  | cons q ps ih =>
    rw [numbered, findSequence, if_pos rfl, ih, length_cons]
    omega

lemma numbered_data (k : Nat) (ps : List (List UInt8)) : (numbered k ps).map Clist.data = ps := by
  induction ps generalizing k with
  | nil => rfl
  | cons q ps ih => rw [numbered, map_cons, ih]

/-- The item of a frame whose first fragments have come in, without the last one. -/
def openItem (id t : Nat) (ps : List (List UInt8)) : NstxItem := ⟨id, t, 0, numbered 0 ps⟩

@[simp] lemma openItem_id (id t : Nat) (ps : List (List UInt8)) : (openItem id t ps).id = id := rfl

structure IsNext (h : Nstxhdr) (id n : Nat) (last : Prop) : Prop where
  magic : h.magic < 256
  chan : h.chan < 16
  id_eq : h.id = id
  seq : h.seq = n
  final : last → h.flags = nstxLF
  open' : ¬last → h.flags = 0

variable {h : Nstxhdr} {id : Nat}

lemma IsNext.ofBytes {n : Nat} {last : Prop} (hn : IsNext h id n last) (hid : id < 4096)
    (hlt : n < 16) (payload : List UInt8) : Nstxhdr.ofBytes (h.toBytes ++ payload) = h := by
  have hflags : h.flags < 16 := by
    by_cases hl : last
    · rw [hn.final hl]
      decide
    rw [hn.open' hl]
    decide
  exact ofBytes_toBytes h hn.magic (by rw [hn.seq]; exact hlt) hn.chan (by rw [hn.id_eq]; exact hid)
    hflags payload

variable {ps : List (List UInt8)}

lemma addData_next {last : Prop} [Decidable last]
    (hn : IsNext h id ps.length last) (t : Nat) (p : List UInt8) (now : Nat) :
    addData (openItem id t ps) h p now =
      ({ id := id, timestamp := now % 4294967296, frc := if last then ps.length + 1 else 0
         chunks := numbered 0 (ps ++ [p]) }, decide last) := by
  have hchunks : addDataChunk (numbered 0 ps) ⟨ps.length, p⟩ = numbered 0 (ps ++ [p]) := by
    have h0 := insertBehind_numbered 0 ps p
    rw [Nat.zero_add] at h0
    rw [addDataChunk_eq, h0]
  have hfound : findSequence 0 (numbered 0 (ps ++ [p])) = ps.length + 1 := by
    rw [findSequence_numbered, Nat.zero_add, length_append]
    rfl
  rw [addData, openItem, hn.seq]
  dsimp only
  rw [hchunks, hfound]
  by_cases hl : last
  · have hflag : h.flags &&& nstxLF ≠ 0 := by
      rw [hn.final hl]
      decide
    simp [hl, hflag]
  have hflag : ¬(h.flags &&& nstxLF ≠ 0) := by
    rw [hn.open' hl]
    decide
  simp [hl, hflag]

def withItem (list : List NstxItem) (id : Nat) : List NstxItem :=
  if (getItemById list id).isNone then allocItem list id else list

/-- The receiver has taken the fragments `ps` of the frame and waits for more. -/
def Awaits (list : List NstxItem) (id : Nat) (ps : List (List UInt8)) : Prop :=
  ∃ t, getItemById (withItem list id) id = some (openItem id t ps)

variable {list : List NstxItem}

lemma handlepacket_next {last : Prop} [Decidable last]
    (hw : Awaits list id ps) (hid : 0 < id) (hid' : id < 4096)
    (hlt : ps.length < 16) (hn : IsNext h id ps.length last) (p : List UInt8) (now check : Nat) :
    nstxHandlepacket list (h.toBytes ++ p) now check =
      if last then (checkTimeouts (unlinkItem id (withItem list id)) check, some (ps ++ [p]).flatten)
      else (checkTimeouts (storeItem (openItem id (now % 4294967296) (ps ++ [p])) (withItem list id)) check,
        none) := by
  obtain ⟨t, ht⟩ := hw
  have hlen : ¬(h.toBytes ++ p).length < 4 := by simp [Nstxhdr.toBytes]
  have hdrop : (h.toBytes ++ p).drop 4 = p := by simp [Nstxhdr.toBytes]
  rw [nstxHandlepacket, if_neg hlen, hn.ofBytes hid' hlt]
  dsimp only
  rw [hn.id_eq, if_neg (by omega), ← withItem, ht, hdrop]
  dsimp only
  rw [addData_next hn]
  by_cases hl : last
  · simp [hl, itemData, numbered_data]
  · simp [hl, openItem]

lemma getItemById_cons (x : NstxItem) (list : List NstxItem) (id : Nat) :
    getItemById (x :: list) id = if x.id = id then some x else getItemById list id := by
  rw [getItemById, find?_cons]
  by_cases hx : x.id = id
  · simp [hx]
  rw [if_neg hx, beq_eq_false_iff_ne.mpr hx]
  rfl

lemma getItemById_storeItem {it : NstxItem} (h : getItemById list id = some it)
    (item : NstxItem) (hid : item.id = id) : getItemById (storeItem item list) id = some item := by
  induction list with
  | nil => exact absurd h (by simp [getItemById])
  | cons x list ih =>
    rw [getItemById_cons] at h
    rw [storeItem, hid]
    by_cases hx : x.id = id
    · rw [if_pos hx, getItemById_cons, if_pos hid]
    rw [if_neg hx] at h ⊢
    rw [getItemById_cons, if_neg hx]
    exact ih h

lemma getItemById_checkTimeouts {check : Nat} {it : NstxItem}
    (h : getItemById list id = some it) (hkeep : ¬(it.timestamp + nstxTimeout) % 4294967296 < check % 4294967296) :
    getItemById (checkTimeouts list check) id = some it := by
  induction list with
  | nil => exact absurd h (by simp [getItemById])
  | cons x list ih =>
    rw [getItemById_cons] at h
    rw [checkTimeouts, filter_cons]
    by_cases hx : x.id = id
    · rw [if_pos hx, Option.some.injEq] at h
      subst h
      rw [if_pos (by simpa using hkeep), getItemById_cons, if_pos hx]
    rw [if_neg hx] at h
    split
    · rw [getItemById_cons, if_neg hx]
      exact ih h
    · exact ih h

lemma awaits_next (hw : Awaits list id ps)
    (p : List UInt8) {now check : Nat} (hkeep : Survives now check) :
    Awaits (checkTimeouts (storeItem (openItem id (now % 4294967296) (ps ++ [p])) (withItem list id)) check)
      id (ps ++ [p]) := by
  obtain ⟨t, ht⟩ := hw
  have hstored := getItemById_storeItem ht (openItem id (now % 4294967296) (ps ++ [p])) rfl
  have hkept := getItemById_checkTimeouts hstored hkeep
  refine ⟨now % 4294967296, ?_⟩
  rw [withItem, hkept]
  exact hkept

lemma awaits_first (h : getItemById list id = none) : Awaits list id [] := by
  refine ⟨0, ?_⟩
  rw [withItem, h]
  simp [allocItem, getItemById, openItem, numbered]

/-- Packets passed to `nstx_handlepacket` one after the other, each with its two clock readings:
the frames handed on and the list that is left. -/
def receive (list : List NstxItem) :
    List (List UInt8) → List (Nat × Nat) → List (List UInt8) × List NstxItem
  | p :: ps, c :: cs =>
    let r := nstxHandlepacket list p c.1 c.2
    let rest := receive r.1 ps cs
    (r.2.toList ++ rest.1, rest.2)
  | _, _ => ([], list)

lemma receive_rest (hid : 0 < id) (hid' : id < 4096) (frs : List (Nstxhdr × List UInt8))
    (hne : frs ≠ []) (hw : Awaits list id ps)
    (hnext : ∀ i (h : i < frs.length), IsNext frs[i].1 id (ps.length + i) (i + 1 = frs.length))
    (hle : ps.length + frs.length ≤ 16) (cs : List (Nat × Nat)) (hcs : cs.length = frs.length)
    (hkeep : ∀ c ∈ cs, Survives c.1 c.2) :
    (receive list (frs.map (fun f => f.1.toBytes ++ f.2)) cs).1 = [(ps ++ frs.map Prod.snd).flatten] := by
  induction frs generalizing list ps cs with
  | nil => exact absurd rfl hne
  | cons f frs ih =>
    obtain ⟨c, cs, rfl⟩ : ∃ c cs', cs = c :: cs' := by
      cases cs with
      | nil => simp at hcs
      | cons c cs => exact ⟨c, cs, rfl⟩
    have hfirst := hnext 0 (by simp)
    rw [getElem_cons_zero, Nat.add_zero, length_cons] at hfirst
    rw [length_cons] at hle
    rw [map_cons, receive]
    dsimp only
    rw [handlepacket_next hw hid hid' (by omega) hfirst]
    by_cases hend : frs = []
    · subst hend
      simp [receive]
    have hpos : 0 < frs.length := length_pos_iff.mpr hend
    rw [if_neg (by omega)]
    have hrest := ih hend (awaits_next hw f.2 (hkeep c (by simp))) ?_ ?_ cs (by simpa using hcs)
      (fun d hd => hkeep d (mem_cons_of_mem _ hd))
    · rw [hrest]
      simp
    · intro i hi
      have h := hnext (i + 1) (by simpa using hi)
      rw [getElem_cons_succ] at h
      rw [length_append, length_singleton]
      have hnum : ps.length + 1 + i = ps.length + (i + 1) := by omega
      have hlast : (i + 1 = frs.length) ↔ (i + 1 + 1 = (f :: frs).length) := by
        rw [length_cons]
        omega
      rw [hnum]
      exact
        { magic := h.magic, chan := h.chan, id_eq := h.id_eq, seq := h.seq
          final := fun hl => h.final (hlast.mp hl)
          open' := fun hl => h.open' (fun hl' => hl (hlast.mpr hl')) }
    rw [length_append, length_singleton]
    omega

def queryRoom (suf : List UInt8) : Int :=
  dnsGetfreespace (suffixlen suf) (dnsSettype dnsAlloc .query) .query - 4

def fragHeader (nh : Nstxhdr) (m len i : Nat) : Nstxhdr :=
  { nh with seq := (nh.seq + i) % 16, flags := if len < (i + 1) * m then nstxLF else 0 }

def piece (nh : Nstxhdr) (m : Nat) (data : List UInt8) (i : Nat) : Nstxhdr × List UInt8 :=
  (fragHeader nh m data.length i, (data.drop (i * m)).take m)

def pieces (m len : Nat) : Nat := (len - 1) / m + 1

variable {len : Nat}

lemma pieces_succ {m : Nat} (hm : 0 < m) (h : m < len) : pieces m len = pieces m (len - m) + 1 := by
  have hlen : len - 1 = len - m - 1 + m := by omega
  rw [pieces, pieces, hlen, Nat.add_div_right _ hm]

def pieceQuery (nsid : Nat) (nh : Nstxhdr) (m : Nat) (data : List UInt8) (behind : Nat → UInt8 × UInt8) (i : Nat) :
    NsQuery :=
  ⟨(nsid + i) % 65536, (piece nh m data i).1.toBytes ++ (piece nh m data i).2, behind i⟩

lemma pieceQuery_drop (nsid : Nat) (nh : Nstxhdr) (m : Nat) (data : List UInt8) (h : m ≤ data.length)
    (behind : Nat → UInt8 × UInt8) (i : Nat) :
    pieceQuery (nsid + 1) { nh with seq := (nh.seq + 1) % 16 } m (data.drop m) (fun i => behind (i + 1)) i =
      pieceQuery nsid nh m data behind (i + 1) := by
  have hnum : nsid + 1 + i = nsid + (i + 1) := by omega
  have hseq : ((nh.seq + 1) % 16 + i) % 16 = (nh.seq + (i + 1)) % 16 := by omega
  have hlast : (data.drop m).length < (i + 1) * m ↔ data.length < (i + 1 + 1) * m := by
    rw [length_drop, Nat.succ_mul (i + 1) m]
    omega
  have hplace : m + i * m = (i + 1) * m := by
    rw [Nat.succ_mul]
    omega
  simp only [pieceQuery, piece, fragHeader, hnum, hseq, hlast, drop_drop, hplace]

lemma pieceQuery_zero (nsid : Nat) {nh : Nstxhdr} (hseq : nh.seq < 16) (hflags : nh.flags = 0) (m : Nat)
    (data : List UInt8) (behind : Nat → UInt8 × UInt8) :
    pieceQuery nsid nh m data behind 0 = ⟨nsid % 65536,
      (if data.length < m then { nh with flags := nstxLF } else nh).toBytes ++ data.take m, behind 0⟩ := by
  have hsame : nh.seq % 16 = nh.seq := Nat.mod_eq_of_lt hseq
  simp only [pieceQuery, piece, fragHeader, Nat.add_zero, hsame, Nat.zero_add, Nat.one_mul, Nat.zero_mul,
    drop_zero]
  by_cases h : data.length < m
  · rw [if_pos h, if_pos h]
  · rw [if_neg h, if_neg h, ← hflags]

lemma sendLoop_sent (suf : List UInt8) {m : Nat} (hroom : queryRoom suf = m) (hm : 0 < m) (turns : Nat)
    (nh : Nstxhdr) (hseq : nh.seq < 16) (hflags : nh.flags = 0) (nsid : Nat) (data : List UInt8)
    (behind : Nat → UInt8 × UInt8) (hpos : 0 < data.length) (hturns : data.length ≤ turns) :
    sendLoop (suffixlen suf) turns nh nsid data behind =
      .sent ((range (pieces m data.length)).map (pieceQuery nsid nh m data behind)) (nsid + pieces m data.length) := by
  induction turns generalizing nh nsid data behind with
  | zero => omega
  | succ turns ih =>
    have hspace : dnsGetfreespace (suffixlen suf) (dnsSetid (dnsSettype dnsAlloc .query) nsid) .query =
        m + 4 := by
      have hsame : dnsGetfreespace (suffixlen suf) (dnsSetid (dnsSettype dnsAlloc .query) nsid) .query =
          queryRoom suf + 4 := by
        rw [queryRoom]
        exact (Int.sub_add_cancel _ _).symm
      rw [hsame, hroom]
    rw [sendLoop]
    dsimp only
    rw [hspace, if_neg (by omega), Int.add_sub_cancel]
    have hfirst := pieceQuery_zero nsid hseq hflags m data behind
    by_cases hlast : (data.length : Int) < m
    · have hk : pieces m data.length = 1 := by
        rw [pieces, Nat.div_eq_of_lt (by omega)]
      rw [if_pos (by omega), take_of_length_le (by omega)] at hfirst
      rw [if_pos hlast]
      dsimp only
      rw [if_neg (by omega), Int.toNat_natCast, drop_length, if_neg (by simp), hk, range_one,
        map_singleton, hfirst, take_length]
      rfl
    rw [if_neg (by omega)] at hfirst
    rw [if_neg hlast]
    dsimp only
    rw [if_neg (by omega), Int.toNat_natCast]
    by_cases hmore : (data.drop m).length ≠ 0
    · rw [if_pos hmore]
      rw [length_drop] at hmore
      have hk : pieces m data.length = pieces m (data.drop m).length + 1 := by
        rw [length_drop]
        exact pieces_succ hm (by omega)
      have hlen : (data.drop m).length ≤ turns := by
        rw [length_drop]
        omega
      rw [ih { nh with seq := (nh.seq + 1) % 16 } (Nat.mod_lt _ (by omega)) hflags (nsid + 1) (data.drop m)
        (fun i => behind (i + 1)) (by rw [length_drop]; omega) hlen, SendEnd.after, hk, range_succ_eq_map, map_cons,
        map_map, hfirst]
      congr 1
      · congr 1
        apply map_congr_left
        intro i _
        exact pieceQuery_drop nsid nh m data (by omega) behind i
      · omega
    -- the frame ends with a full query
    rw [if_neg hmore]
    rw [not_not, length_drop] at hmore
    have hk : pieces m data.length = 1 := by
      rw [pieces, Nat.div_eq_of_lt (by omega)]
    rw [hk, range_one, map_singleton, hfirst]
    rfl

lemma pieces_le_iff {m : Nat} (hm : 0 < m) (hlen : 0 < len) : pieces m len ≤ 16 ↔ len ≤ 16 * m := by
  have hdiv : (len - 1) / m < 16 ↔ len - 1 < 16 * m := Nat.div_lt_iff_lt_mul hm
  rw [pieces]
  omega

lemma short_piece_iff {m i : Nat} (hm : 0 < m) (hlen : 0 < len) (hi : i < pieces m len) :
    len < (i + 1) * m ↔ i + 1 = pieces m len ∧ ¬m ∣ len := by
  rw [pieces] at hi ⊢
  have hdiv := Nat.div_add_mod (len - 1) m
  have hmod := Nat.mod_lt (len - 1) hm
  generalize (len - 1) / m = q at hdiv hi ⊢
  generalize (len - 1) % m = r at hdiv hmod
  have hsplit : len = m * q + (r + 1) := by omega
  have hdvd : m ∣ len ↔ r + 1 = m := by
    rw [hsplit, Nat.dvd_add_right (Nat.dvd_mul_right m q)]
    constructor
    · intro h
      exact Nat.le_antisymm (by omega) (Nat.le_of_dvd (by omega) h)
    intro h
    exact ⟨1, by omega⟩
  rw [hdvd]
  by_cases hq : i = q
  · subst hq
    rw [Nat.succ_mul, Nat.mul_comm i m]
    omega
  have hle : (i + 1) * m ≤ m * q := by
    rw [Nat.mul_comm m q]
    exact Nat.mul_le_mul_right m (by omega)
  constructor
  · omega
  rintro ⟨h, -⟩
  omega

lemma pieces_flatten (m : Nat) (data : List UInt8) (k : Nat) :
    ((range k).map (fun i => (data.drop (i * m)).take m)).flatten = data.take (k * m) := by
  induction k with
  | zero => simp
  | succ k ih =>
    rw [range_succ, map_append, flatten_append, ih, Nat.succ_mul, take_add]
    simp

lemma pieces_flatten_all {m : Nat} (hm : 0 < m) (data : List UInt8) :
    ((range (pieces m data.length)).map (fun i => (data.drop (i * m)).take m)).flatten = data := by
  rw [pieces_flatten]
  apply take_of_length_le
  have hlt : data.length - 1 < pieces m data.length * m := by
    rw [pieces, ← Nat.div_lt_iff_lt_mul hm]
    exact Nat.lt_succ_self _
  by_cases h0 : data.length = 0
  · omega
  · omega

def callHeader (c : NsClient) (now chan : Nat) : Nstxhdr :=
  { magic := nstxMagic, seq := 0, chan := chan % 16, id := (c.nextId now % 4096).toNat, flags := 0 }

lemma callHeader_id_lt (c : NsClient) (now chan : Nat) : (callHeader c now chan).id < 4096 := by
  simp only [callHeader]
  omega

lemma pieceQuery_header (c : NsClient) (now chan nsid m : Nat) (data : List UInt8) (behind : Nat → UInt8 × UInt8)
    (i : Nat) : Nstxhdr.ofBytes (pieceQuery nsid (callHeader c now chan) m data behind i).fragment =
    fragHeader (callHeader c now chan) m data.length i := by
  have hmagic : (callHeader c now chan).magic < 256 := show nstxMagic < 256 by decide
  have hchan : (callHeader c now chan).chan < 16 := Nat.mod_lt _ (show 0 < 16 by decide)
  refine ofBytes_toBytes (fragHeader (callHeader c now chan) m data.length i) hmagic
    (Nat.mod_lt _ (show 0 < 16 by decide)) hchan (callHeader_id_lt c now chan) ?_ _
  simp only [fragHeader]
  split <;> decide

/-- The queries of one call carry a frame: consecutive and different sequence numbers, the flag of
the last fragment on the last query and on no other, the bytes of the frame in order, the name of each
query gives its characters back; and a server that has no item for it hands on the frame and nothing
else, whatever the buffers on the way held before. -/
structure QueriesCarry (suf frame : List UInt8) (queries : List NsQuery) : Prop where
  consecutive : ∀ i (h : i + 1 < queries.length), (Nstxhdr.ofBytes queries[i + 1].fragment).seq =
    ((Nstxhdr.ofBytes queries[i].fragment).seq + 1) % 16
  distinct : (queries.map (fun q => (Nstxhdr.ofBytes q.fragment).seq)).Nodup
  last : ∀ i (h : i < queries.length),
    (Nstxhdr.ofBytes queries[i].fragment).flags &&& nstxLF ≠ 0 ↔ i + 1 = queries.length
  payload : (queries.map (fun q => q.fragment.drop 4)).flatten = frame
  recovered : ∀ q ∈ queries, recoveredData suf q.chars = some q.chars
  delivered : ∀ list mems, (∀ q ∈ queries, getItemById list (Nstxhdr.ofBytes q.fragment).id = none) →
    mems.length = queries.length → (∀ mem ∈ mems, Survives mem.now mem.check) →
      ∃ left, carryQueries suf list (queries.zip mems) = some ([frame], left)

/-- Queries that bring their fragments to the server are handled as the fragments are. -/
lemma carryQueries_eq {suf : List UInt8} {queries : List NsQuery} (hcomes : ∀ q ∈ queries, ∀ mem list,
      (q.datagram suf mem).bind (nstxGetpacket suf mem list) = some (nstxHandlepacket list q.fragment mem.now mem.check))
    (list : List NstxItem) (mems : List QueryMem) (hlen : mems.length = queries.length) :
    carryQueries suf list (queries.zip mems) =
      some (receive list (queries.map NsQuery.fragment) (mems.map fun mem => (mem.now, mem.check))) := by
  induction queries generalizing list mems with
  | nil => rfl
  | cons q queries ih =>
    cases mems with
    | nil => exact absurd hlen (by simp)
    | cons mem mems =>
      obtain ⟨datagram, hsent, hgot⟩ := Option.bind_eq_some_iff.mp (hcomes q mem_cons_self mem list)
      have hrest := ih (fun q hq => hcomes q (mem_cons_of_mem _ hq))
        (nstxHandlepacket list q.fragment mem.now mem.check).1 mems (by simpa using hlen)
      rw [zip_cons_cons, carryQueries, hsent]
      simp only [Option.bind_eq_bind, Option.bind_some, hgot, hrest]
      rfl

lemma receive_dropped (list : List NstxItem) (ps : List (List UInt8)) (cs : List (Nat × Nat))
    (h : ∀ p ∈ ps, (Nstxhdr.ofBytes p).id = 0) : (receive list ps cs).1 = [] := by
  induction ps generalizing cs with
  | nil => rfl
  | cons p ps ih =>
    cases cs with
    | nil => rfl
    | cons c cs =>
      have hdrop : nstxHandlepacket list p c.1 c.2 = (list, none) := by
        rw [nstxHandlepacket]
        split
        · rfl
        dsimp only
        rw [if_pos (h p (by simp))]
      rw [receive]
      dsimp only
      rw [hdrop]
      exact ih cs (fun q hq => h q (mem_cons_of_mem _ hq))

section Call

variable (c : NsClient) (now chan nsid : Nat) {m : Nat} (frame : List UInt8) (behind : Nat → UInt8 × UInt8)

def callQueries (m : Nat) : List NsQuery :=
  (range (pieces m frame.length)).map (pieceQuery nsid (callHeader c now chan) m frame behind)

lemma callQueries_length : (callQueries c now chan nsid frame behind m).length = pieces m frame.length := by
  simp [callQueries]

lemma callQueries_header (i : Nat) (h : i < (callQueries c now chan nsid frame behind m).length) :
    Nstxhdr.ofBytes (callQueries c now chan nsid frame behind m)[i].fragment =
    fragHeader (callHeader c now chan) m frame.length i := by
  simp only [callQueries, getElem_map, getElem_range]
  exact pieceQuery_header c now chan nsid m frame behind i

lemma callQueries_flag (hm : 0 < m) (hlen : 0 < frame.length) (i : Nat)
    (h : i < (callQueries c now chan nsid frame behind m).length) :
    (Nstxhdr.ofBytes (callQueries c now chan nsid frame behind m)[i].fragment).flags &&& nstxLF ≠ 0 ↔ i + 1 =
    (callQueries c now chan nsid frame behind m).length ∧ ¬m ∣ frame.length := by
  rw [callQueries_header, callQueries_length,
    ← short_piece_iff hm hlen (by rwa [callQueries_length] at h)]
  simp only [fragHeader]
  by_cases hshort : frame.length < (i + 1) * m
  · simp [hshort, nstxLF]
  · simp [hshort]

lemma callQueries_seqs : (callQueries c now chan nsid frame behind m).map
    (fun q => (Nstxhdr.ofBytes q.fragment).seq) = (range (pieces m frame.length)).map (· % 16) := by
  rw [callQueries, map_map]
  apply map_congr_left
  intro i _
  rw [Function.comp_apply, pieceQuery_header]
  simp [fragHeader, callHeader]

lemma callQueries_payload (hm : 0 < m) :
    ((callQueries c now chan nsid frame behind m).map (fun q => q.fragment.drop 4)).flatten = frame := by
  have hdrop : (fun q : NsQuery => q.fragment.drop 4) ∘ pieceQuery nsid (callHeader c now chan) m frame behind =
      fun i => (frame.drop (i * m)).take m := by
    funext i
    simp [pieceQuery, piece, Nstxhdr.toBytes]
  rw [callQueries, map_map, hdrop]
  exact pieces_flatten_all hm frame

lemma callQueries_delivered (hm : 0 < m) (hlen : 0 < frame.length) (hndvd : ¬m ∣ frame.length)
    (hfit : pieces m frame.length ≤ 16) (hid : 0 < (callHeader c now chan).id) (list : List NstxItem)
    (cs : List (Nat × Nat))
    (hnone : ∀ q ∈ callQueries c now chan nsid frame behind m, getItemById list (Nstxhdr.ofBytes q.fragment).id = none)
    (hcs : cs.length = (callQueries c now chan nsid frame behind m).length) (hkeep : ∀ c ∈ cs, Survives c.1 c.2) :
    (receive list ((callQueries c now chan nsid frame behind m).map NsQuery.fragment) cs).1 = [frame] := by
  set frs := (range (pieces m frame.length)).map (piece (callHeader c now chan) m frame) with hfrs
  have hfragments : (callQueries c now chan nsid frame behind m).map NsQuery.fragment =
      frs.map (fun f => f.1.toBytes ++ f.2) := by
    rw [callQueries, map_map, hfrs, map_map]
    rfl
  have hframe : (frs.map Prod.snd).flatten = frame := by
    rw [hfrs, map_map]
    exact pieces_flatten_all hm frame
  have hcount : frs.length = pieces m frame.length := by simp [hfrs]
  have hpieces : 0 < pieces m frame.length := Nat.succ_pos _
  have hfirst : getItemById list (callHeader c now chan).id = none := by
    have h0 : 0 < (callQueries c now chan nsid frame behind m).length := by
      rw [callQueries_length]
      exact hpieces
    have h := hnone _ (getElem_mem h0)
    rw [callQueries_header] at h
    exact h
  have hnext : ∀ i (h : i < frs.length), IsNext frs[i].1 (callHeader c now chan).id
      (([] : List (List UInt8)).length + i) (i + 1 = frs.length) := by
    intro i hi
    have hi' : i < pieces m frame.length := by rwa [hcount] at hi
    have hpiece : frs[i].1 = fragHeader (callHeader c now chan) m frame.length i := by
      simp [hfrs, piece]
    have hshort := short_piece_iff hm hlen hi'
    rw [hpiece, hcount]
    constructor
    · exact show nstxMagic < 256 by decide
    · exact Nat.mod_lt _ (by decide)
    · rfl
    · simp only [fragHeader, callHeader, length_nil]
      omega
    · intro hl
      exact if_pos (hshort.mpr ⟨hl, hndvd⟩)
    · intro hl
      exact if_neg (fun h => hl (hshort.mp h).1)
  rw [hfragments, receive_rest hid (callHeader_id_lt c now chan) frs ?_ (awaits_first hfirst) hnext ?_ cs
    ?_ hkeep]
  · rw [nil_append, hframe]
  · intro h0
    rw [h0, length_nil] at hcount
    omega
  · rw [length_nil, hcount]
    omega
  · rw [hcs, callQueries_length, hcount]

/-- The fragment `i` of a frame, with its header. -/
def callFragment (m i : Nat) : List UInt8 :=
  (fragHeader (callHeader c now chan) m frame.length i).toBytes ++ (frame.drop (i * m)).take m

lemma callFragment_length (m i : Nat) : (callFragment c now chan frame m i).length ≤ m + 4 := by
  rw [callFragment, length_append, length_take]
  exact Nat.add_comm m 4 ▸ Nat.add_le_add_left (Nat.min_le_left m _) 4

lemma mem_callQueries {q : NsQuery} (h : q ∈ callQueries c now chan nsid frame behind m) :
    ∃ i < pieces m frame.length, q.fragment = callFragment c now chan frame m i ∧ q.behind = behind i := by
  obtain ⟨i, hi, rfl⟩ := mem_map.mp h
  exact ⟨i, mem_range.mp hi, rfl, rfl⟩

lemma pieceQuery_chars (m i : Nat) : (pieceQuery nsid (callHeader c now chan) m frame behind i).chars =
    nsChars (callFragment c now chan frame m i) (behind i) := rfl

variable {ls : List (List UInt8)}

section

variable (hne : ls ≠ []) (hls : ∀ l ∈ ls, IsLabel l) (hdot : ∀ l ∈ ls, 0x2e ∉ l)
  (hroom : m + 4 + 189 * suffixlen (dotted ls) / 256 ≤ 183)

include hne hls hdot hroom

lemma callQueries_recovered :
    (∀ q ∈ callQueries c now chan nsid frame behind m, recoveredData (dotted ls) q.chars = some q.chars) ↔
    ∀ i < pieces m frame.length, ¬SuffixInside ls (nsChars (callFragment c now chan frame m i) (behind i)) := by
  have hback : ∀ i, recoveredData (dotted ls) (nsChars (callFragment c now chan frame m i) (behind i)) =
      some (nsChars (callFragment c now chan frame m i) (behind i)) ↔
        ¬SuffixInside ls (nsChars (callFragment c now chan frame m i) (behind i)) := by
    intro i
    have hlen := callFragment_length c now chan frame m i
    refine recoveredData_iff ls _ hne hls hdot (fun hnil => ?_) (nsChars_mem (by omega))
    have hchars := @nsChars_length (callFragment c now chan frame m i) (behind i) (by omega)
    rw [hnil, length_nil] at hchars
    omega
  constructor
  · intro h i hi
    have hq := h _ (mem_map_of_mem (mem_range.mpr hi))
    rw [pieceQuery_chars] at hq
    exact (hback i).mp hq
  intro h q hq
  obtain ⟨i, hi, hfragment, hbehind⟩ := mem_callQueries c now chan nsid frame behind hq
  rw [NsQuery.chars, hfragment, hbehind]
  exact (hback i).mpr (h i hi)

lemma callQueries_carry_iff (hm : 0 < m) (hlen : 0 < frame.length) :
    QueriesCarry (dotted ls) frame (callQueries c now chan nsid frame behind m) ↔ ¬m ∣ frame.length ∧
    frame.length ≤ 16 * m ∧ (callHeader c now chan).id ≠ 0 ∧ ∀ i < pieces m frame.length,
    ¬SuffixInside ls (nsChars (callFragment c now chan frame m i) (behind i)) := by
  have hcount : (callQueries c now chan nsid frame behind m).length = pieces m frame.length :=
    callQueries_length c now chan nsid frame behind
  have hpieces : 0 < pieces m frame.length := Nat.succ_pos _
  have hflag := callQueries_flag c now chan nsid frame behind hm hlen
  have hcarried (hback : ∀ q ∈ callQueries c now chan nsid frame behind m,
      recoveredData (dotted ls) q.chars = some q.chars) := carryQueries_eq fun q hq mem list => by
    obtain ⟨i, -, hfragment, -⟩ := mem_callQueries c now chan nsid frame behind hq
    have hle := callFragment_length c now chan frame m i
    exact query_comes hls hdot (by rw [hfragment]; omega) (hback q hq) mem list
  rw [← pieces_le_iff hm hlen, ← callQueries_recovered c now chan nsid frame behind hne hls hdot hroom]
  constructor
  · intro h
    refine ⟨?_, ?_, ?_, h.recovered⟩
    · have hlast : pieces m frame.length - 1 < (callQueries c now chan nsid frame behind m).length := by omega
      have hset := (h.last _ hlast).mpr (by omega)
      exact ((hflag _ hlast).mp hset).2
    · by_contra hmany
      have hnodup := h.distinct
      rw [callQueries_seqs, nodup_map_iff_inj_on nodup_range] at hnodup
      have heq := hnodup 0 (mem_range.mpr hpieces) 16 (mem_range.mpr (by omega)) rfl
      omega
    intro h0
    have hzero : ∀ p ∈ (callQueries c now chan nsid frame behind m).map NsQuery.fragment,
        (Nstxhdr.ofBytes p).id = 0 := by
      intro p hp
      rw [callQueries, map_map, mem_map] at hp
      obtain ⟨i, -, rfl⟩ := hp
      rw [Function.comp_apply, pieceQuery_header]
      exact h0
    let mem : QueryMem := ⟨⟨0, fun _ => 0⟩, fun _ => 0, ⟨0, fun _ => 0⟩, fun _ => 0, fun _ => 0, 0, 0⟩
    have hmems : (replicate (pieces m frame.length) mem).length = _ := length_replicate.trans hcount.symm
    obtain ⟨left, hgot⟩ := h.delivered [] (replicate (pieces m frame.length) mem) (fun _ _ => rfl) hmems fun t ht => by
      rw [eq_of_mem_replicate ht]
      exact show ¬(0 % 4294967296 + nstxTimeout) % 4294967296 < 0 % 4294967296 by decide
    rw [hcarried h.recovered [] _ hmems] at hgot
    have hnone := receive_dropped [] _ ((replicate (pieces m frame.length) mem).map fun mem => (mem.now, mem.check)) hzero
    rw [Option.some.inj hgot] at hnone
    exact cons_ne_nil _ _ hnone
  rintro ⟨hndvd, hfit, hid, hback⟩
  constructor
  · intro i hi
    rw [callQueries_header, callQueries_header]
    simp only [fragHeader, callHeader]
    omega
  · rw [callQueries_seqs, nodup_map_iff_inj_on nodup_range]
    intro i hi j hj hij
    rw [mem_range] at hi hj
    omega
  · intro i hi
    rw [hflag i hi]
    exact and_iff_left hndvd
  · exact callQueries_payload c now chan nsid frame behind hm
  · exact hback
  · intro list mems hnone hmems hkeep
    have hgot := callQueries_delivered c now chan nsid frame behind hm hlen hndvd hfit (Nat.pos_of_ne_zero hid) list
      (mems.map fun mem => (mem.now, mem.check)) hnone (by rw [length_map, hmems])
      (fun t ht => by obtain ⟨mem, hmem, rfl⟩ := mem_map.mp ht; exact hkeep mem hmem)
    exact ⟨_, by rw [hcarried hback list mems hmems, ← hgot]⟩

end

end Call

lemma queryRoom_bound {suf : List UInt8} {m : Nat} (h : queryRoom suf = m) :
    m + 4 + 189 * suffixlen suf / 256 ≤ 183 := by
  have hmul : Int.tdiv (189 * (suffixlen suf : Int)) 256 = (189 * suffixlen suf / 256 : Nat) := by
    rw [Int.tdiv_eq_ediv_of_nonneg (by omega)]
    omega
  have hraw : (dnsMaxpkt : Int) - dnsGetpktsize (dnsSettype dnsAlloc .query) = 500 := rfl
  rw [queryRoom, dnsGetfreespace, hraw] at h
  simp only [hmul] at h
  split_ifs at h <;> omega

lemma lt_pieces_iff {m i : Nat} (hm : 0 < m) (hlen : 0 < len) : i < pieces m len ↔ i * m < len := by
  rw [pieces, Nat.lt_succ_iff, Nat.le_div_iff_mul_le hm]
  omega

/-- A frame given to `nstxc_send_packet` is sent in finitely many turns, and its queries carry it if
and only if the room of a query does not divide its length, sixteen queries hold it, the identifier
of the call is no multiple of 4096, and in the name of no query the suffix occurs before its place. -/
theorem client_frame_carried (ls : List (List UInt8)) (hne : ls ≠ []) (hls : ∀ l ∈ ls, IsLabel l)
    (hdot : ∀ l ∈ ls, 0x2e ∉ l)
    (hspace : 4 < dnsGetfreespace (suffixlen (dotted ls)) (dnsSettype dnsAlloc .query) .query) (c : NsClient)
    (now chan : Nat) (behind : Nat → UInt8 × UInt8) (frame : List UInt8) (hframe : 1 ≤ frame.length) :
    (∃ queries nsid, (∀ turns, frame.length ≤ turns →
        nstxcSendPacket turns (dotted ls) c now chan behind frame = .sent queries nsid) ∧
        QueriesCarry (dotted ls) frame queries) ↔
      ¬queryRoom (dotted ls) ∣ frame.length ∧ (frame.length : Int) ≤ 16 * queryRoom (dotted ls) ∧
        ¬(4096 : Int) ∣ c.nextId now ∧ ∀ i, i * (queryRoom (dotted ls)).toNat < frame.length →
          ¬SuffixInside ls (nsChars (callFragment c now chan frame (queryRoom (dotted ls)).toNat i) (behind i)) := by
  obtain ⟨m, hm⟩ : ∃ m : Nat, queryRoom (dotted ls) = m := Int.eq_ofNat_of_zero_le (by rw [queryRoom]; omega)
  have hroom := queryRoom_bound hm
  have hpos : 0 < m := by
    rw [queryRoom] at hm
    omega
  have hsent : ∀ turns, frame.length ≤ turns → nstxcSendPacket turns (dotted ls) c now chan behind frame =
      .sent (callQueries c now chan c.nsid frame behind m) (c.nsid + pieces m frame.length) := fun turns ht =>
    sendLoop_sent _ hm hpos turns (callHeader c now chan) (Nat.zero_lt_succ _) rfl c.nsid frame behind hframe ht
  have hid : (callHeader c now chan).id ≠ 0 ↔ ¬(4096 : Int) ∣ c.nextId now := by
    simp only [callHeader]
    omega
  have hcarry := callQueries_carry_iff c now chan c.nsid frame behind hne hls hdot hroom hpos hframe
  simp only [lt_pieces_iff hpos hframe] at hcarry
  rw [hm, Int.toNat_natCast, Int.natCast_dvd_natCast, ← hid]
  constructor
  · rintro ⟨queries, nsid, hall, hqueries⟩
    have heq := hall frame.length le_rfl
    rw [hsent _ le_rfl, SendEnd.sent.injEq] at heq
    rw [← heq.1, hcarry] at hqueries
    exact ⟨hqueries.1, by omega, hqueries.2.2⟩
  rintro ⟨hndvd, hfit, hrest⟩
  exact ⟨_, _, hsent, hcarry.mpr ⟨hndvd, by omega, hrest⟩⟩

lemma isLabel_abc : ∀ l ∈ [([97, 98, 99] : List UInt8)], IsLabel l := by
  intro l hl
  rw [mem_singleton.mp hl]
  exact ⟨by decide, by decide, by decide +kernel⟩

/-- A frame of 175 bytes under the suffix `abc`, in two queries. -/
theorem client_frame_carried_two : ∃ queries nsid, (∀ turns, 175 ≤ turns →
      nstxcSendPacket turns [97, 98, 99] ⟨7, 0⟩ 0 0 (fun _ => (0, 0)) (replicate 175 1) = .sent queries nsid) ∧
    QueriesCarry [97, 98, 99] (replicate 175 1) queries :=
  (client_frame_carried [[97, 98, 99]] (by decide) isLabel_abc (by decide) (by decide +kernel) ⟨7, 0⟩ 0 0
    (fun _ => (0, 0)) (replicate 175 1) (by decide +kernel)).mpr
    ⟨by decide +kernel, by decide +kernel, by decide +kernel, by
      have hroom : (queryRoom (dotted [[97, 98, 99]])).toNat = 174 := by decide +kernel
      have hapart : ∀ i < 2, ¬SuffixInside [[97, 98, 99]]
          (nsChars (callFragment ⟨7, 0⟩ 0 0 (replicate 175 1) 174 i) (0, 0)) := by decide +kernel
      intro i hi
      rw [hroom, length_replicate] at hi
      rw [hroom]
      exact hapart i (by omega)⟩

/-- The room under the suffix `abc` is 174 bytes; a frame of that size has no last fragment. -/
theorem client_frame_unfinished : ¬∃ queries nsid, (∀ turns, 174 ≤ turns →
      nstxcSendPacket turns [97, 98, 99] ⟨7, 0⟩ 0 0 (fun _ => (0, 0)) (replicate 174 0) = .sent queries nsid) ∧
    QueriesCarry [97, 98, 99] (replicate 174 0) queries := by
  rintro ⟨queries, nsid, hall, hcarry⟩
  have hrun := hall 174 le_rfl
  have hsent : nstxcSendPacket 174 [97, 98, 99] ⟨7, 0⟩ 0 0 (fun _ => (0, 0)) (replicate 174 0) =
      .sent [⟨0, [0xb4, 0, 7, 0] ++ replicate 174 0, (0, 0)⟩] 1 := by
    decide +kernel
  rw [hsent, SendEnd.sent.injEq] at hrun
  obtain ⟨rfl, -⟩ := hrun
  have hflag := (hcarry.last 0 (by decide)).mpr rfl
  exact absurd hflag (by decide +kernel)

end Vde
