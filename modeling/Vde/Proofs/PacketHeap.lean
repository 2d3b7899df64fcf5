import Mathlib.Algebra.Ring.Nat
import Vde.PacketQueue

/-!
# The heap of the packet queues

`Queues h ids q` says that the endpoints `ids` have the queues `q`: the elements of a queue form a
circular list, no element is in two queues, and the count of a buffer is the number of elements
that refer to it. The operations on one queue are specified by what they do to `q`.
-/

namespace Vde

open List Function Option

/-- The queues of the endpoints: the address of each element and its buffer, in order. -/
abbrev QueueMap := Nat → List (Nat × Nat)

def tailOf (xs : List (Nat × Nat)) : Option Nat := (xs.map Prod.fst).getLast?

def refs (ids : List Nat) (q : QueueMap) (b : Nat) : Nat :=
  (ids.map (fun i => ((q i).map Prod.snd).count b)).sum

structure Queues (h : PqHeap) (ids : List Nat) (q : QueueMap) : Prop where
  ring : ∀ i ∈ ids, IsRing h.elems (tailOf (q i)) (q i)
  disjoint : ∀ i ∈ ids, ∀ j ∈ ids, i ≠ j → ∀ a ∈ (q i).map Prod.fst, a ∉ (q j).map Prod.fst
  bufs : ∀ b, (h.bufs b).map PacketBuf.count = if refs ids q b = 0 then none else some (refs ids q b : Int)
  few : ∀ b, refs ids q b ≤ 32767

def waiting (h : PqHeap) (xs : List (Nat × Nat)) : List (List UInt8) :=
  xs.map (fun x => bufPacket h.bufs x.2)

variable {i : Nat}

section Refs

variable {ids : List Nat} {q : QueueMap}

lemma refs_other (hi : i ∉ ids) (xs : List (Nat × Nat)) (b : Nat) : refs ids (update q i xs) b = refs ids q b := by
  rw [refs, refs]
  congr 1
  apply map_congr_left
  intro j hj
  have hji : j ≠ i := by
    rintro rfl
    exact hi hj
  rw [update_of_ne hji]

lemma refs_update (hi : i ∈ ids) (hnodup : ids.Nodup) (xs : List (Nat × Nat)) (b : Nat) :
    refs ids (update q i xs) b + ((q i).map Prod.snd).count b = refs ids q b + (xs.map Prod.snd).count b := by
  induction ids with
  | nil => exact absurd hi not_mem_nil
  | cons j ids ih =>
    obtain ⟨hj, hnodup⟩ := nodup_cons.mp hnodup
    have hsplit : ∀ p : QueueMap, refs (j :: ids) p b = ((p j).map Prod.snd).count b + refs ids p b :=
      fun p => by rw [refs, map_cons, sum_cons, refs]
    rw [hsplit, hsplit]
    by_cases hij : i = j
    · subst hij
      rw [update_self, refs_other hj]
      omega
    have hrest := ih ((mem_cons.mp hi).resolve_left hij) hnodup
    rw [update_of_ne (Ne.symm hij)]
    omega

lemma refs_pos (hi : i ∈ ids) (hnodup : ids.Nodup) {x : Nat × Nat} (hx : x ∈ q i) : 0 < refs ids q x.2 := by
  have hcount : 0 < ((q i).map Prod.snd).count x.2 :=
    List.count_pos_iff.mpr (mem_map.mpr ⟨x, hx, rfl⟩)
  have hempty := refs_update hi hnodup (q := q) [] x.2
  rw [map_nil, count_nil] at hempty
  omega

end Refs

variable {h : PqHeap} {ids : List Nat} {q : QueueMap}

lemma Queues.buf_none (hq : Queues h ids q) (b : Nat) : h.bufs b = none ↔ refs ids q b = 0 := by
  have hb := hq.bufs b
  cases hbuf : h.bufs b with
  | none =>
    rw [hbuf, map_none] at hb
    by_cases h0 : refs ids q b = 0
    · simp [h0]
    rw [if_neg h0] at hb
    exact absurd hb (by simp)
  | some pb =>
    rw [hbuf, map_some] at hb
    by_cases h0 : refs ids q b = 0
    · rw [if_pos h0] at hb
      exact absurd hb (by simp)
    · simp [h0]

variable {b : Nat}

lemma Queues.buf_count (hq : Queues h ids q) {pb : PacketBuf} (hb : h.bufs b = some pb) :
    pb.count = refs ids q b ∧ 0 < refs ids q b := by
  have h0 : refs ids q b ≠ 0 := by
    intro h0
    rw [(hq.buf_none b).mpr h0] at hb
    exact absurd hb (by simp)
  have hcount := hq.bufs b
  rw [hb, if_neg h0, map_some, some.injEq] at hcount
  exact ⟨hcount, Nat.pos_of_ne_zero h0⟩

variable {xs : List (Nat × Nat)}

lemma Queues.change (hq : Queues h ids q) (hi : i ∈ ids) {h' : PqHeap}
    (hring : IsRing h'.elems (tailOf xs) xs)
    (hfresh : ∀ a ∈ xs.map Prod.fst, a ∈ (q i).map Prod.fst ∨ h.elems a = none)
    (hother : ∀ a, a ∉ (q i).map Prod.fst → h.elems a ≠ none → h'.elems a = h.elems a)
    (hbufs : ∀ b, (h'.bufs b).map PacketBuf.count =
      if refs ids (update q i xs) b = 0 then none
      else some (refs ids (update q i xs) b : Int))
    (hfew : ∀ b, refs ids (update q i xs) b ≤ 32767) :
    Queues h' ids (update q i xs) := by
  -- an element of another queue is neither in this one nor free
  have haway : ∀ j ∈ ids, j ≠ i → ∀ a ∈ (q j).map Prod.fst, a ∉ (q i).map Prod.fst ∧ h.elems a ≠ none := by
    intro j hj hji a ha
    refine ⟨hq.disjoint j hj i hi hji a ha, ?_⟩
    intro hfree
    exact (hq.ring j hj).not_mem hfree ha
  refine ⟨?_, ?_, hbufs, hfew⟩
  · intro j hj
    by_cases hji : j = i
    · subst hji
      rw [update_self]
      exact hring
    rw [update_of_ne hji]
    refine (hq.ring j hj).congr ?_
    intro a ha
    obtain ⟨hna, hlive⟩ := haway j hj hji a ha
    exact hother a hna hlive
  intro j hj k hk hjk a ha
  by_cases hji : j = i
  · subst hji
    rw [update_self] at ha
    rw [update_of_ne (Ne.symm hjk)]
    intro hak
    obtain ⟨hna, hlive⟩ := haway k hk (Ne.symm hjk) a hak
    rcases hfresh a ha with hin | hfree
    · exact hna hin
    · exact hlive hfree
  rw [update_of_ne hji] at ha
  by_cases hki : k = i
  · subst hki
    rw [update_self]
    intro hak
    obtain ⟨hna, hlive⟩ := haway j hj hji a ha
    rcases hfresh a hak with hin | hfree
    · exact hna hin
    · exact hlive hfree
  rw [update_of_ne hki]
  exact hq.disjoint j hj k hk hjk a ha

lemma bmod_small {n : Int} (h0 : 0 ≤ n) (h1 : n ≤ 32767) : n.bmod 65536 = n := by
  have hmod : n % (65536 : Nat) = n := by omega
  rw [Int.bmod, hmod, if_pos (by omega)]

lemma refs_add (hnodup : ids.Nodup) (hi : i ∈ ids) (new b b' : Nat) :
    refs ids (update q i (q i ++ [(new, b)])) b' = refs ids q b' + if b' = b then 1 else 0 := by
  have h := refs_update hi hnodup (q := q) (q i ++ [(new, b)]) b'
  rw [map_append, count_append, map_singleton, count_singleton] at h
  by_cases hb : b' = b
  · rw [if_pos hb]
    rw [if_pos (by simp [hb])] at h
    omega
  rw [if_neg hb]
  rw [if_neg (by simp [Ne.symm hb])] at h
  omega

lemma refs_drop (hnodup : ids.Nodup) (hi : i ∈ ids) {a : Nat} (hq : q i = (a, b) :: xs) (b' : Nat) :
    refs ids (update q i xs) b' + (if b' = b then 1 else 0) = refs ids q b' := by
  have h := refs_update hi hnodup (q := q) xs b'
  rw [hq, map_cons, count_cons] at h
  by_cases hb : b' = b
  · rw [if_pos hb]
    rw [if_pos (by simp [hb])] at h
    omega
  rw [if_neg hb]
  rw [if_neg (by simp [Ne.symm hb])] at h
  omega

/-- `TMPBUF` in turn `k` of a loop: no buffer yet, or the buffer of the packet, to which at most
`k` elements refer. -/
def TmpOk (h : PqHeap) (ids : List Nat) (q : QueueMap) (packet : List UInt8) (k : Nat)
    (tmp : Option Nat) : Prop :=
  ∀ b, tmp = some b → (∃ c, h.bufs b = some ⟨packet, c⟩) ∧ refs ids q b ≤ k

lemma Queues.add (hq : Queues h ids q) (hnodup : ids.Nodup) (hi : i ∈ ids) {new : Nat}
    (hnew : h.elems new = none) {packet : List UInt8} {bufs : BufHeap}
    (hb : bufs b = some ⟨packet, refs ids q b⟩) (hsame : ∀ b', b' ≠ b → bufs b' = h.bufs b')
    (hroom : refs ids q b < 32767) :
    Queues ⟨ringAdd h.elems (tailOf (q i)) new b, update bufs b
        ((bufs b).map (fun pb => { pb with count := (pb.count + 1).bmod 65536 }))⟩ ids
      (update q i (q i ++ [(new, b)])) := by
  have hring := hq.ring i hi
  refine hq.change hi ?_ ?_ ?_ ?_ ?_
  · have htail : tailOf (q i ++ [(new, b)]) = some new := by simp [tailOf]
    rw [htail]
    exact hring.add hnew b
  · intro a ha
    rw [map_append, mem_append, map_singleton, mem_singleton] at ha
    rcases ha with ha | rfl
    · exact .inl ha
    · exact .inr hnew
  · intro a ha hlive
    refine ringAdd_other _ _ _ ?_ ?_
    · rintro rfl
      exact hlive hnew
    intro htail
    exact ha (mem_of_getLast? htail)
  · intro b'
    rw [refs_add hnodup hi]
    dsimp only
    by_cases hbb : b' = b
    · subst hbb
      rw [update_self, hb, if_pos rfl, if_neg (by omega)]
      simp only [map_some, some.injEq]
      rw [bmod_small (by omega) (by omega)]
      push_cast
      rfl
    rw [update_of_ne hbb, hsame b' hbb, if_neg hbb, Nat.add_zero]
    exact hq.bufs b'
  · intro b'
    rw [refs_add hnodup hi]
    have hfew := hq.few b'
    split
    · rename_i hbb
      subst hbb
      omega
    · omega

lemma tmpBuf_spec (hq : Queues h ids q) {m : Malloc} {k : Nat} {packet : List UInt8} {tmp : Option Nat}
    (htmp : TmpOk h ids q packet k tmp) {bufs : BufHeap}
    (hbuf : tmpBuf m k h.bufs packet tmp = some (b, bufs)) : bufs b = some ⟨packet, refs ids q b⟩ ∧
    (∀ b', b' ≠ b → bufs b' = h.bufs b') ∧ refs ids q b ≤ k ∧ (h.bufs b ≠ none → bufPacket h.bufs b = packet) := by
  cases tmp with
  | some b₀ =>
    simp only [tmpBuf, some.injEq, Prod.mk.injEq] at hbuf
    obtain ⟨rfl, rfl⟩ := hbuf
    obtain ⟨⟨c, hc⟩, hle⟩ := htmp b₀ rfl
    have hcount := (hq.buf_count hc).1
    dsimp only at hcount
    rw [hcount] at hc
    refine ⟨hc, fun _ _ => rfl, hle, fun _ => ?_⟩
    rw [bufPacket, hc]
    rfl
  | none =>
    simp only [tmpBuf, map_eq_some_iff, Prod.mk.injEq] at hbuf
    obtain ⟨b₀, hb₀, rfl, rfl⟩ := hbuf
    have hfree := m.buf_free k _ _ hb₀
    have hzero : refs ids q b₀ = 0 := (hq.buf_none b₀).mp hfree
    refine ⟨?_, fun b' hb' => update_of_ne hb' _ _, by omega, fun hlive => absurd hfree hlive⟩
    rw [update_self, hzero]
    rfl

lemma vdepqAdd_spec (hq : Queues h ids q) (hnodup : ids.Nodup) (hi : i ∈ ids) (m : Malloc) {k : Nat}
    (hk : k < 32767) (packet : List UInt8) {tmp : Option Nat} (htmp : TmpOk h ids q packet k tmp) :
    (vdepqAdd m k h (tailOf (q i)) packet tmp = ⟨h, tailOf (q i), tmp, 0⟩) ∨ ∃ new b h',
    vdepqAdd m k h (tailOf (q i)) packet tmp = ⟨h', some new, some b, 1⟩ ∧
    Queues h' ids (update q i (q i ++ [(new, b)])) ∧
    TmpOk h' ids (update q i (q i ++ [(new, b)])) packet (k + 1) (some b) ∧ bufPacket h'.bufs b = packet ∧
    ∀ b', h.bufs b' ≠ none → bufPacket h'.bufs b' = bufPacket h.bufs b' := by
  rw [vdepqAdd]
  cases hnew : m.elem k h.elems with
  | none => exact .inl rfl
  | some new =>
    dsimp only
    cases hbuf : tmpBuf m k h.bufs packet tmp with
    | none =>
      left
      cases tmp with
      | none => rfl
      | some b => exact absurd hbuf (by simp [tmpBuf])
    | some p =>
      obtain ⟨b, bufs⟩ := p
      obtain ⟨hb, hsame, hle, hpacket⟩ := tmpBuf_spec hq htmp hbuf
      right
      refine ⟨new, b, _, rfl, hq.add hnodup hi (m.elem_free k _ _ hnew) hb hsame (by omega), ?_, ?_, ?_⟩
      · rintro b' hb'
        obtain rfl := some.inj hb'
        refine ⟨⟨((refs ids q b : Int) + 1).bmod 65536, ?_⟩, ?_⟩
        · dsimp only
          rw [update_self, hb]
          rfl
        rw [refs_add hnodup hi, if_pos rfl]
        omega
      · dsimp only
        rw [bufPacket, update_self, hb]
        rfl
      intro b' hlive
      dsimp only
      by_cases hbb : b' = b
      · subst hbb
        rw [hpacket hlive, bufPacket, update_self, hb]
        rfl
      rw [bufPacket, update_of_ne hbb, hsame b' hbb]
      rfl

lemma Queues.deleteFirst (hq : Queues h ids q) (hnodup : ids.Nodup) (hi : i ∈ ids) {a : Nat}
    (hxs : q i = (a, b) :: xs) {t : Nat} (ht : tailOf (q i) = some t) :
    Queues (Vde.deleteFirst h t).1 ids (update q i xs) ∧ (Vde.deleteFirst h t).2 = tailOf xs ∧ firstBuf h t = b ∧
    ∀ b', refs ids (update q i xs) b' ≠ 0 → bufPacket (Vde.deleteFirst h t).1.bufs b' = bufPacket h.bufs b' := by
  have hring := hq.ring i hi
  rw [ht, hxs] at hring
  have hfirst : firstBuf h t = b := by
    rw [firstBuf, hring.next_tail]
    have hval := hring.val (mem_cons_self)
    dsimp only at hval
    rw [hval]
    rfl
  have hdropped := hring.drop
  have htail : (Vde.deleteFirst h t).2 = tailOf xs := hdropped.last
  have hpos : 0 < refs ids q b := refs_pos hi hnodup (x := (a, b)) (by rw [hxs]; exact mem_cons_self)
  obtain ⟨pb, hpb⟩ : ∃ pb, h.bufs b = some pb := by
    cases hbuf : h.bufs b with
    | none =>
      rw [hq.buf_none] at hbuf
      omega
    | some pb => exact ⟨pb, rfl⟩
  have hcount := (hq.buf_count hpb).1
  have hfew := hq.few b
  have hrefs := refs_drop hnodup hi hxs
  have hbmod : (pb.count - 1).bmod 65536 = (refs ids q b : Int) - 1 := by
    rw [hcount, bmod_small (by omega) (by omega)]
  -- the buffers after `PACKETBUFDEL`
  have hdel : (Vde.deleteFirst h t).1.bufs = if refs ids q b = 1 then update h.bufs b none
      else update h.bufs b (some { pb with count := (refs ids q b : Int) - 1 }) := by
    simp only [Vde.deleteFirst, packetbufDel, hfirst, hpb, hbmod]
    by_cases h1 : refs ids q b = 1
    · rw [if_pos (by omega), if_pos h1]
    · rw [if_neg (by omega), if_neg h1]
  refine ⟨?_, htail, hfirst, ?_⟩
  · refine hq.change hi ?_ ?_ ?_ ?_ ?_
    · rw [← htail]
      exact hdropped
    · intro c hc
      left
      rw [hxs]
      exact mem_cons_of_mem _ hc
    · intro c hc hlive
      rw [hxs] at hc
      refine ringDrop_other _ ?_ ?_
      · rw [hring.next_tail]
        rintro rfl
        exact hc (by simp)
      rintro rfl
      rw [← hxs] at hc
      exact hc (mem_of_getLast? ht)
    · intro b'
      have hr := hrefs b'
      rw [hdel]
      by_cases hbb : b' = b
      · subst hbb
        rw [if_pos rfl] at hr
        by_cases h1 : refs ids q b' = 1
        · rw [if_pos h1, update_self, if_pos (by omega)]
          rfl
        rw [if_neg h1, update_self, if_neg (by omega)]
        simp only [map_some, some.injEq]
        omega
      rw [if_neg hbb, Nat.add_zero] at hr
      rw [hr, ← hq.bufs b']
      by_cases h1 : refs ids q b = 1
      · rw [if_pos h1, update_of_ne hbb]
      · rw [if_neg h1, update_of_ne hbb]
    · intro b'
      have hr := hrefs b'
      have hf := hq.few b'
      omega
  · intro b' hne
    have hr := hrefs b'
    rw [hdel]
    by_cases hbb : b' = b
    · subst hbb
      rw [if_pos rfl] at hr
      rw [if_neg (by omega), bufPacket, bufPacket, update_self, hpb]
      rfl
    by_cases h1 : refs ids q b = 1
    · rw [if_pos h1, bufPacket, update_of_ne hbb]
      rfl
    rw [if_neg h1, bufPacket, update_of_ne hbb]
    rfl

lemma tailOf_cons (x : Nat × Nat) (xs : List (Nat × Nat)) : ∃ t, tailOf (x :: xs) = some t := by
  cases h : tailOf (x :: xs) with
  | none =>
    rw [tailOf, getLast?_eq_none_iff] at h
    exact absurd h (by simp)
  | some t => exact ⟨t, rfl⟩

lemma waiting_congr {h' : PqHeap} {q' : QueueMap} (hnodup : ids.Nodup) (hi : i ∈ ids)
    (hkeep : ∀ b, refs ids q' b ≠ 0 → bufPacket h'.bufs b = bufPacket h.bufs b)
    (hxs : ∀ x ∈ xs, x ∈ q' i) : waiting h' xs = waiting h xs := by
  rw [waiting, waiting]
  apply map_congr_left
  intro x hx
  exact hkeep x.2 (Nat.ne_of_gt (refs_pos hi hnodup (hxs x hx)))

lemma vdepqTry_spec (hnodup : ids.Nodup) (hi : i ∈ ids) (blocks : Nat → Bool) (xs : List (Nat × Nat))
    (k : Nat) {h : PqHeap} {q : QueueMap} (hq : Queues h ids q) (hxs : q i = xs) : ∃ done rest, xs = done ++ rest ∧
    (vdepqTry blocks xs.length k h (tailOf xs)).sent = waiting h done ∧
    (vdepqTry blocks xs.length k h (tailOf xs)).tail = tailOf rest ∧
    Queues (vdepqTry blocks xs.length k h (tailOf xs)).heap ids (update q i rest) ∧ ∀ b,
    refs ids (update q i rest) b ≠ 0 → bufPacket (vdepqTry blocks xs.length k h (tailOf xs)).heap.bufs b =
    bufPacket h.bufs b := by
  induction xs generalizing k h q with
  | nil =>
    have hsame : update q i [] = q := by rw [← hxs, update_eq_self]
    refine ⟨[], [], rfl, rfl, rfl, ?_, fun _ _ => rfl⟩
    rw [hsame]
    exact hq
  | cons x xs ih =>
    obtain ⟨t, ht⟩ := tailOf_cons x xs
    rw [ht, length_cons, vdepqTry]
    by_cases hb : blocks k = true
    · rw [if_pos hb]
      refine ⟨[], x :: xs, rfl, rfl, ht.symm, ?_, fun _ _ => rfl⟩
      rw [← hxs, update_eq_self]
      exact hq
    rw [if_neg hb]
    dsimp only
    obtain ⟨hq', htail, hfirst, hkeep⟩ := hq.deleteFirst hnodup hi hxs (by rw [hxs]; exact ht)
    obtain ⟨done, rest, hsplit, hsent, htail', hqueues, hpackets⟩ :=
      ih (k + 1) hq' (update_self _ _ _)
    rw [update_idem] at hqueues hpackets
    rw [htail]
    refine ⟨x :: done, rest, by rw [hsplit]; rfl, ?_, htail', hqueues, ?_⟩
    · rw [hsent, hfirst]
      have hsame : waiting (deleteFirst h t).1 done = waiting h done := by
        refine waiting_congr hnodup hi hkeep ?_
        intro y hy
        rw [update_self, hsplit]
        exact mem_append_left _ hy
      rw [hsame]
      rfl
    intro b hne
    rw [hpackets b hne]
    apply hkeep
    -- fewer elements are left, so the buffer was in use before
    have hmore := refs_update hi hnodup (q := update q i xs) rest b
    rw [update_idem, update_self, hsplit, map_append, count_append] at hmore
    rw [hsplit]
    omega

lemma vdepqDel_spec (hnodup : ids.Nodup) (hi : i ∈ ids) (xs : List (Nat × Nat)) {h : PqHeap} {q : QueueMap}
    (hq : Queues h ids q) (hxs : q i = xs) : Queues (vdepqDel xs.length h (tailOf xs)).1 ids (update q i []) ∧ ∀ b,
    refs ids (update q i []) b ≠ 0 → bufPacket (vdepqDel xs.length h (tailOf xs)).1.bufs b =
    bufPacket h.bufs b := by
  induction xs generalizing h q with
  | nil =>
    have hsame : update q i [] = q := by rw [← hxs, update_eq_self]
    refine ⟨?_, fun _ _ => rfl⟩
    rw [hsame]
    exact hq
  | cons x xs ih =>
    obtain ⟨t, ht⟩ := tailOf_cons x xs
    rw [ht, length_cons, vdepqDel]
    obtain ⟨hq', htail, -, hkeep⟩ := hq.deleteFirst hnodup hi hxs (by rw [hxs]; exact ht)
    obtain ⟨hqueues, hpackets⟩ := ih hq' (update_self _ _ _)
    rw [update_idem] at hqueues hpackets
    rw [htail]
    refine ⟨hqueues, ?_⟩
    intro b hne
    rw [hpackets b hne]
    apply hkeep
    have hmore := refs_update hi hnodup (q := update q i xs) [] b
    rw [update_idem, update_self, map_nil, count_nil] at hmore
    omega

end Vde
