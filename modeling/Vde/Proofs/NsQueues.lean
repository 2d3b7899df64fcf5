import Vde.QueueHeap
import Vde.Proofs.DnsLabels

/-!
# Names that fit into the queue

The name of a question is made of the labels on its way through the datagram. Nothing bounds their
number but the size of the datagram and the 21 pointers.
-/

namespace Vde

open List

def questionPlaces (buf : List UInt8) : Nat → Nat → List Nat
  | 0, _ => []
  | count + 1, ptr =>
    ptr :: (match nameEnd buf ptr with
      | some (_, e) => questionPlaces buf count (e + 4)
      | none => [])

def NamedAt (buf : List UInt8) (p : Nat) (rr : Rr) : Prop :=
  ∃ name, decompressLabel buf p = .ok (some name) ∧ rr.data = some name

/-- The query name that `nstx_getpacket` passes on has at most 256 bytes in front of its zero and is
copied inside of its field, and so have all names that `decompress_label` has returned for this
datagram. -/
structure QueryFits (buf : List UInt8) : Prop where
  passed : ∀ id name, queryPassed buf = .ok (some (id, name)) → (cString name).length ≤ 256
  copied : ∀ peer now qtimeout queue, ∃ queue', queueQuery buf peer now qtimeout queue = .ok (some queue')
  names : ∀ turns pkt, dnsExtractpkt buf = .ok (turns, some pkt) → ∀ rr ∈ pkt.query, ∀ name,
    rr.data = some name → (cString name).length ≤ 256

/-- The labels on the way of a question, each with its length byte, have at most 256 bytes in front of
the first zero among them. -/
def LabelsFit (buf : List UInt8) : Prop :=
  ∀ p ∈ questionPlaces buf (shortAt buf 4) 12, ∀ way, Way charOffset buf p way →
    (cString (wayBytes buf way)).length ≤ 256

lemma cString_append_end (bytes : List UInt8) : cString (bytes ++ [0]) = cString bytes := by
  rw [cString, cString, takeWhile_append]
  split
  · next h =>
    rw [takeWhile_cons_of_neg (by decide), append_nil]
    exact (IsPrefix.eq_of_length ( takeWhile_prefix _) h).symm
  · rfl

lemma strcpy_fits {dst : Block UInt8} {src : List UInt8} (h : (cString src).length < dst.size) :
    ∃ dst', strcpy dst src = some dst' := by
  have hroom : 0 + (cString src ++ [0]).length ≤ dst.size := by
    rw [length_append, length_singleton]
    omega
  obtain ⟨dst', hdst, -⟩ := Block.exists_storeList hroom
  exact ⟨dst', hdst⟩

variable {turns : List Turn} {pkt : DnsPkt}

section

variable {buf : List UInt8}

lemma extractQuery_named {x z : Extracted} (h : extractQuery buf x = .ok (turns, some z)) : ∃ n e rr,
    nameEnd buf x.ptr = some (n, e) ∧ z.ptr = e + 4 ∧ z.query = x.query ++ [rr] ∧ NamedAt buf x.ptr rr := by
  rw [extractQuery] at h
  obtain ⟨r, hname, h⟩ := bind_eq_ok.mp h
  cases r with
  | none => exact absurd h (by simp)
  | some name =>
    obtain ⟨⟨p, left⟩, hskip, h⟩ := bind_eq_ok.mp h
    cases p with
    | none => exact absurd h (by simp)
    | some p =>
      obtain ⟨n, hend⟩ := skipLoop_no_name _ _ _ hskip
      simp only [pure_eq_ok, Except.ok.injEq, Prod.mk.injEq, Option.some.injEq] at h
      rw [← h.2]
      exact ⟨n, p, _, hend, rfl, rfl, name, hname, rfl⟩

lemma extractRecords_named (ancount : Nat) {qdcount : Nat} {x y : Extracted}
    (h : extractRecords buf ancount qdcount x = .ok (turns, some y)) :
    ∃ qs, y.query = x.query ++ qs ∧ Forall₂ (NamedAt buf) (questionPlaces buf qdcount x.ptr) qs := by
  induction qdcount generalizing x with
  | zero =>
    rw [extractRecords_zero] at h
    obtain ⟨z, hz, h⟩ := bind_eq_ok.mp h
    obtain ⟨-, -, hquery, -⟩ := extractAnswers_adds ancount hz
    rw [Except.ok.injEq, Prod.mk.injEq, Option.some.injEq] at h
    rw [← h.2, hquery]
    exact ⟨[], (append_nil _).symm, Forall₂.nil⟩
  | succ qdcount ih =>
    rw [extractRecords_succ] at h
    obtain ⟨⟨first, z⟩, hq, h⟩ := bind_eq_ok.mp h
    cases z with
    | none => exact absurd h (by simp)
    | some z =>
      obtain ⟨n, e, rr, hend, hptr, hquery, hnamed⟩ := extractQuery_named hq
      obtain ⟨qs, hqs, hrest⟩ := ih h
      refine ⟨rr :: qs, ?_, ?_⟩
      · rw [hqs, hquery, append_assoc, singleton_append]
      rw [questionPlaces, hend]
      rw [hptr] at hrest
      exact Forall₂.cons hnamed hrest

lemma dnsExtractpkt_named (h : dnsExtractpkt buf = .ok (turns, some pkt)) :
    Forall₂ (NamedAt buf) (questionPlaces buf (shortAt buf 4) 12) pkt.query := by
  have hlen : 17 ≤ buf.length := by
    by_contra hshort
    rw [dnsExtractpkt, if_pos (by omega)] at h
    exact absurd h (by simp)
  rw [dnsExtractpkt_records hlen] at h
  obtain ⟨⟨first, y⟩, hy, h⟩ := bind_eq_ok.mp h
  rw [Except.ok.injEq, Prod.mk.injEq, Option.map_eq_some_iff] at h
  obtain ⟨-, z, hz, hpkt⟩ := h
  replace hz : y = some z := hz
  rw [hz] at hy
  obtain ⟨qs, hqs, hall⟩ := extractRecords_named (shortAt buf 6) hy
  rw [← hpkt, hqs]
  exact hall

lemma NamedAt.length_eq {p : Nat} {rr : Rr} (h : NamedAt buf p rr) : ∃ way, Way charOffset buf p way ∧ ∀ name,
    rr.data = some name → (cString name).length = (cString (wayBytes buf way)).length := by
  obtain ⟨name, hname, hdata⟩ := h
  have hin : p < buf.length := by
    by_contra hout
    rw [decompressLabel_outside (by omega)] at hname
    cases hname
  obtain ⟨way, hway, -, -, rfl⟩ := (decompressLabel_some_iff hin).mp hname
  refine ⟨way, hway, fun name' hname' => ?_⟩
  rw [hdata, Option.some.injEq] at hname'
  rw [← hname', cString_append_end]

lemma queryPassed_eq (h : dnsExtractpkt buf = .ok (turns, some pkt)) :
    queryPassed buf = .ok ((dnsGetquerydata pkt).1.map (fun name => (pkt.id, name))) := by
  rw [queryPassed, h]
  rfl

lemma getquerydata_mem {name : List UInt8} (h : (dnsGetquerydata pkt).1 = some name) :
    ∃ rr ∈ pkt.query, rr.data = some name := by
  rw [dnsGetquerydata] at h
  cases hq : pkt.query with
  | nil =>
    rw [hq] at h
    cases h
  | cons rr query =>
    rw [hq] at h
    exact ⟨rr, mem_cons_self, h⟩

lemma queueitem_fits {name : List UInt8} (h : (cString name).length ≤ 256) (id peer : Nat) (now qtimeout : Int)
    (queue : List NstxQueue) : ∃ queue', queueitem id (some name) (some peer) now qtimeout queue = some queue' := by
  rw [queueitem]
  split
  · exact ⟨queue, rfl⟩
  obtain ⟨field, hfield⟩ := @strcpy_fits ⟨queueNameSize, fun _ => 0⟩ name (Nat.lt_succ_of_le h)
  rw [nameField, hfield]
  exact ⟨_, rfl⟩

/-- The names of an accepted datagram fit exactly if the labels on the ways of its questions do. -/
theorem query_fits_iff {turns : List Turn} {pkt : DnsPkt} (h : dnsExtractpkt buf = .ok (turns, some pkt)) :
    QueryFits buf ↔ LabelsFit buf := by
  have hnamed := dnsExtractpkt_named h
  constructor
  · intro hfits p hp way hway
    obtain ⟨i, hi, rfl⟩ := getElem_of_mem hp
    have hlen := hnamed.length_eq
    have hat := (forall₂_iff_get.mp hnamed).2 i hi (by omega)
    obtain ⟨way', hway', hname⟩ := hat.length_eq
    obtain ⟨name, -, hdata⟩ := hat
    have hle := hfits.names turns pkt h _ (getElem_mem _) name hdata
    rw [hname name hdata, hway'.unique hway] at hle
    exact hle
  intro hfit
  have hall : ∀ rr ∈ pkt.query, ∀ name, rr.data = some name → (cString name).length ≤ 256 := by
    intro rr hrr name hdata
    obtain ⟨i, hi, rfl⟩ := getElem_of_mem hrr
    have hlen := hnamed.length_eq
    have hat := (forall₂_iff_get.mp hnamed).2 i (by omega) hi
    obtain ⟨way, hway, hname⟩ := hat.length_eq
    have hle := hfit _ (getElem_mem _) way hway
    exact Nat.le_trans (Nat.le_of_eq (hname name hdata)) hle
  have hpassed : ∀ id name, queryPassed buf = .ok (some (id, name)) → (cString name).length ≤ 256 := by
    intro id name hid
    rw [queryPassed_eq h, Except.ok.injEq, Option.map_eq_some_iff] at hid
    obtain ⟨name', hname', heq⟩ := hid
    rw [Prod.mk.injEq] at heq
    rw [heq.2] at hname'
    obtain ⟨rr, hrr, hdata⟩ := getquerydata_mem hname'
    exact hall rr hrr name hdata
  refine ⟨hpassed, ?_, ?_⟩
  · intro peer now qtimeout queue
    rw [queueQuery]
    cases hq : (dnsGetquerydata pkt).1 with
    | none =>
      rw [queryPassed_eq h, hq]
      exact ⟨queue, rfl⟩
    | some name =>
      have hid : queryPassed buf = .ok (some (pkt.id, name)) := by
        rw [queryPassed_eq h, hq]
        rfl
      obtain ⟨queue', hqueue⟩ := queueitem_fits (hpassed _ _ hid) pkt.id peer now qtimeout queue
      rw [hid, ok_bind]
      dsimp only
      rw [hqueue]
      exact ⟨queue', rfl⟩
  intro turns' pkt' h'
  rw [h, Except.ok.injEq, Prod.mk.injEq, Option.some.injEq] at h'
  rw [← h'.2]
  exact hall

end

def questionFor (labels : List UInt8) : List UInt8 :=
  [0, 1, 1, 0, 0, 1, 0, 0, 0, 0, 0, 0] ++ labels ++ [0, 0, 16, 0, 1]

theorem query_fits_iff_small : QueryFits (questionFor [1, 97]) := by
  refine (@query_fits_iff (questionFor [1, 97]) [⟨12, 7⟩] ⟨1, none, [⟨some [1, 97, 0], 3, 0⟩], []⟩
    (by decide +kernel)).mpr fun p hp way hway => ?_
  have hplaces : questionPlaces (questionFor [1, 97]) (shortAt (questionFor [1, 97]) 4) 12 = [12] := by decide +kernel
  rw [hplaces, mem_singleton] at hp
  subst hp
  have hroot : Way charOffset (questionFor [1, 97]) 14 [14] := .root (by decide)
  rw [hway.unique (@Way.label _ _ 12 1 _ (by decide) (by decide) (by decide) hroot)]
  decide

def fiveLabels : List UInt8 := (replicate 5 (63 :: replicate 63 97)).flatten

/-- A question of 320 bytes is accepted. -/
theorem five_labels_overflow : (∃ turns pkt, dnsExtractpkt (questionFor fiveLabels) = .ok (turns, some pkt)) ∧
    ¬QueryFits (questionFor fiveLabels) := by
  have haccepted : dnsExtractpkt (questionFor fiveLabels) =
      .ok ([⟨12, 325⟩], some ⟨1, none, [⟨some (fiveLabels ++ [0]), 321, 0⟩], []⟩) := by decide +kernel
  refine ⟨⟨_, _, haccepted⟩, ?_⟩
  intro hfits
  have hpassed : queryPassed (questionFor fiveLabels) = .ok (some (1, fiveLabels ++ [0])) := by
    rw [queryPassed_eq haccepted]
    rfl
  have hle := hfits.passed 1 _ hpassed
  exact absurd hle (by decide +kernel)

end Vde
