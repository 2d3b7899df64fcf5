import Mathlib.Data.List.SplitLengths
import Mathlib.Algebra.Order.Group.Nat
import Vde.Proofs.StreamFraming

/-!
# Cutting frames into chunks

A chunk of whole frames is written frame by frame. The end of a frame that was begun in another chunk never
comes together with its beginning: the rest is copied to an offset four times too large, and a chunk that is
long enough is written as if it began the frame.
-/

namespace Vde

open List

/-- The chunks of the frames with payloads `ps`, with the given lengths, are written as these frames, and no
copy goes behind `outbuf`. -/
def SendsFrames (ps : List (List UInt8)) (cuts : List Nat) : Prop :=
  let s := sendChunks sendInit (cuts.splitLengths (streamOf ps))
  s.written = ps.map vdestreamSend ∧ s.outside = false ∧ s.hangs = false

def CutsAtFrames : List Nat → List Nat → Prop
  | _, [] => True
  | lens, c :: cuts => ∃ j, ((lens.take j).map (2 + ·)).sum = c ∧ CutsAtFrames (lens.drop j) cuts

def Payload (p : List UInt8) : Prop := 1 ≤ p.length ∧ p.length ≤ 1518

variable {data : List UInt8} {n : Nat} {qs : List (List UInt8)}

section

variable {p : List UInt8} {ps : List (List UInt8)} {s : SendState} {tail rest : List UInt8} {turns c : Nat}

lemma Payload.sendable (hp : Payload p) : Sendable p := by
  obtain ⟨h0, h1⟩ := hp
  exact ⟨h0, by rw [maxPacket]; omega⟩

lemma frameLength_send (hp : Payload p) (tail : List UInt8) :
    frameLength (vdestreamSend p ++ tail) = 2 + p.length := by
  have hvalue := header_value hp.sendable.2
  rw [Nat.shiftLeft_eq] at hvalue
  have hsmall := hp.2
  rw [vdestreamSend_eq hp.sendable, frameLength]
  simp only [cons_append, getD_cons_succ, getD_cons_zero]
  omega

lemma expects_begin (hs : s.outp = 0) (hlen : 2 ≤ data.length) : s.expects data = frameLength data := by
  rw [SendState.expects, if_pos ⟨hs, hlen⟩]

lemma expects_inside (hs : s.outp ≠ 0) : s.expects data = s.outlen := by
  rw [SendState.expects, if_neg (fun h => hs h.1)]

lemma expects_byte (hlen : data.length < 2) : s.expects data = s.outlen := by
  rw [SendState.expects, if_neg (fun h => by omega)]

/-! ### Whole frames -/

lemma sendVde_through (hn : s.expects data = n) (hpos : 0 < n) (hle : n ≤ data.length) :
    sendVde (turns + 1) s data =
      sendVde turns { s with outlen := n, written := s.written ++ [data.take n] } (data.drop n) := by
  rw [sendVde, if_neg (by omega), hn]
  dsimp only
  rw [if_pos hle, if_neg (by omega)]

lemma sendVde_hold (hn : s.expects data = n) (hpos : 0 < data.length)
    (hlt : data.length < n) : sendVde (turns + 1) s data = s.hold n data := by
  rw [sendVde, if_neg (by omega), hn]
  dsimp only
  rw [if_neg (by omega)]

lemma sendVde_frame (hp : Payload p) (hs : s.outp = 0) :
    sendVde (turns + 1) s (vdestreamSend p ++ tail) =
      sendVde turns { s with outlen := 2 + p.length, written := s.written ++ [vdestreamSend p] } tail := by
  have hlen := vdestreamSend_length hp.sendable
  have hall : (vdestreamSend p ++ tail).length = 2 + p.length + tail.length := by
    rw [length_append, hlen]
  have hexpects : s.expects (vdestreamSend p ++ tail) = 2 + p.length := by
    rw [expects_begin hs (by omega), frameLength_send hp]
  rw [sendVde_through hexpects (by omega) (by omega), ← hlen, take_left, drop_left]

lemma sendVde_frames (hps : ∀ p ∈ ps, Payload p) (hs : s.outp = 0) :
    sendVde (ps.length + turns) s (streamOf ps ++ tail) =
      sendVde turns
        { s with
          outlen := (ps.map (fun p => 2 + p.length)).getLastD s.outlen
          written := s.written ++ ps.map vdestreamSend } tail := by
  induction ps generalizing s with
  | nil => rw [map_nil, map_nil, append_nil, length_nil, Nat.zero_add]; rfl
  | cons p ps ih =>
    have hturns : (p :: ps).length + turns = ps.length + turns + 1 := by
      rw [length_cons]
      omega
    have hrest := @ih { s with outlen := 2 + p.length, written := s.written ++ [vdestreamSend p] }
      (fun q hq => hps q (mem_cons_of_mem _ hq)) hs
    rw [hturns, streamOf_cons, append_assoc, sendVde_frame (hps p mem_cons_self) hs, hrest]
    simp only [map_cons, append_assoc, singleton_append, getLastD_cons]

lemma streamOf_length_ge (hps : ∀ p ∈ ps, Payload p) : 3 * ps.length ≤ (streamOf ps).length := by
  induction ps with
  | nil => exact Nat.zero_le _
  | cons p ps ih =>
    have hrest := ih (fun q hq => hps q (mem_cons_of_mem _ hq))
    have hp := hps p mem_cons_self
    rw [streamOf_length_cons hp.sendable, length_cons]
    have hpos := hp.1
    omega

lemma sendVde_nil : sendVde turns s [] = s := by
  cases turns with
  | zero => rfl
  | succ turns => rw [sendVde, if_pos length_nil]

lemma sendVde_whole (hps : ∀ p ∈ ps, Payload p) (hs : s.outp = 0) :
    ∃ outlen, sendVde (streamOf ps).length s (streamOf ps) =
      { s with outlen := outlen, written := s.written ++ ps.map vdestreamSend } := by
  have hlen := streamOf_length_ge hps
  obtain ⟨turns, hturns⟩ := Nat.exists_eq_add_of_le (show ps.length ≤ (streamOf ps).length by omega)
  have hframes := @sendVde_frames ps s [] turns hps hs
  rw [append_nil, ← hturns, sendVde_nil] at hframes
  exact ⟨_, hframes⟩

/-! ### What has been written stays written -/

lemma hold_written (n : Nat) (s : SendState) (data : List UInt8) :
    ∃ more, (s.hold n data).written = s.written ++ more := by
  rw [SendState.hold]
  split
  · exact ⟨_, rfl⟩
  · exact ⟨[], (append_nil _).symm⟩

lemma sendVde_written (turns : Nat) (s : SendState) (data : List UInt8) :
    ∃ more, (sendVde turns s data).written = s.written ++ more := by
  induction turns generalizing s data with
  | zero => exact ⟨[], (append_nil _).symm⟩
  | succ turns ih =>
    rw [sendVde]
    split
    · exact ⟨[], (append_nil _).symm⟩
    dsimp only
    split
    · split
      · exact ⟨[], (append_nil _).symm⟩
      obtain ⟨more, hmore⟩ := ih
        { s with outlen := s.expects data, written := s.written ++ [data.take (s.expects data)] }
        (data.drop (s.expects data))
      rw [hmore, append_assoc]
      exact ⟨_, rfl⟩
    · exact hold_written _ _ _

lemma sendChunks_cons (s : SendState) (c : List UInt8) (cs : List (List UInt8)) :
    sendChunks s (c :: cs) = sendChunks (if s.hangs then s else sendVde c.length s c) cs := rfl

lemma sendChunks_written (s : SendState) (cs : List (List UInt8)) :
    ∃ more, (sendChunks s cs).written = s.written ++ more := by
  induction cs generalizing s with
  | nil => exact ⟨[], (append_nil _).symm⟩
  | cons c cs ih =>
    rw [sendChunks_cons]
    obtain ⟨more, hmore⟩ := ih (if s.hangs then s else sendVde c.length s c)
    rw [hmore]
    split
    · exact ⟨more, rfl⟩
    obtain ⟨first, hfirst⟩ := sendVde_written c.length s c
    rw [hfirst, append_assoc]
    exact ⟨_, rfl⟩

lemma sendChunks_live (hlive : s.hangs = false) (hc : c ≤ rest.length) (cuts : List Nat) :
    sendChunks s ((c :: cuts).splitLengths rest) =
    sendChunks (sendVde c s (rest.take c)) (cuts.splitLengths (rest.drop c)) := by
  have hlive' : ¬s.hangs = true := by
    rw [hlive]
    exact Bool.false_ne_true
  rw [splitLengths_cons, sendChunks_cons, if_neg hlive', length_take_of_le hc]

/-! ### A frame that was begun in another chunk -/

def Loud (p : List UInt8) : Prop := ∀ b ∈ p, b = 255

/-- After `outp` bytes of the frame of `p`, with `rest` to come. A byte of the payload is missing in `outbuf`,
and no later copy fills it. -/
structure StuckAt (p rest : List UInt8) (s : SendState) : Prop where
  live : s.hangs = false
  begun : 1 ≤ s.outp
  short : s.outp < s.outlen
  gap : ∃ d, 2 ≤ d ∧ d < 2 + p.length ∧ d < s.outp * 4 ∧ s.outbuf d = 0
  next : s.outlen = 2 + p.length → ∃ more, rest = (vdestreamSend p).drop s.outp ++ more

lemma loud_byte (hp : Payload p) (hloud : Loud p) {k : Nat} (hk : 2 ≤ k) (hlt : k < 2 + p.length) :
    (vdestreamSend p)[k]? = some 255 := by
  obtain ⟨i, rfl⟩ := Nat.exists_eq_add_of_le' hk
  have hi : i < p.length := by omega
  rw [vdestreamSend_eq hp.sendable, getElem?_cons_succ, getElem?_cons_succ, getElem?_eq_getElem hi,
    hloud _ (getElem_mem hi)]

lemma header_quiet (hp : Payload p) : (vdestreamSend p)[0]? ≠ some 255 := by
  have hsmall := hp.2
  rw [vdestreamSend_eq hp.sendable, getElem?_cons_zero]
  intro h
  have hbyte := congrArg UInt8.toNat (Option.some.inj h)
  rw [UInt8.toNat_ofNat'] at hbyte
  have hvalue : (255 : UInt8).toNat = 255 := rfl
  omega

section

variable (hs : StuckAt p rest s) (hp : Payload p) (hloud : Loud p)

include hs hp hloud

lemma StuckAt.through (hc : c ≤ rest.length)
    (hle : s.outlen ≤ c) : (rest.take c).take s.outlen ≠ vdestreamSend p := by
  intro heq
  have hlen := congrArg length heq
  rw [length_take, length_take, vdestreamSend_length hp.sendable] at hlen
  have houtlen : s.outlen = 2 + p.length := by omega
  obtain ⟨more, hrest⟩ := hs.next houtlen
  have hshort := hs.short
  have hbegun := hs.begun
  have hpos := hp.1
  have hbyte : ∀ k, s.outp + k < s.outlen → (vdestreamSend p)[s.outp + k]? = (vdestreamSend p)[k]? := by
    intro k hk
    have hin : k < ((vdestreamSend p).drop s.outp).length := by
      rw [length_drop, vdestreamSend_length hp.sendable]
      omega
    rw [← getElem?_drop, ← @getElem?_append_left _ _ more k hin, ← hrest]
    conv_rhs => rw [← heq]
    rw [getElem?_take_of_lt (by omega), getElem?_take_of_lt (by omega)]
  have hfirst := hbyte 0 (by omega)
  rw [Nat.add_zero] at hfirst
  by_cases hone : s.outp = 1
  · rw [hone] at hbyte hfirst
    have hsecond := hbyte 1 (by omega)
    rw [loud_byte hp hloud (Nat.le_refl 2) (by omega)] at hsecond
    exact header_quiet hp (hfirst.symm.trans hsecond.symm)
  rw [loud_byte hp hloud (by omega) (by omega)] at hfirst
  exact header_quiet hp hfirst.symm

lemma StuckAt.hold (hc : c ≤ rest.length) :
    StuckAt p (rest.drop c) (s.hold s.outlen (rest.take c)) ∧ (s.hold s.outlen (rest.take c)).written = s.written ∨
    ∃ bad, bad ≠ vdestreamSend p ∧ (s.hold s.outlen (rest.take c)).written = s.written ++ [bad] := by
  obtain ⟨d, hd2, hdp, hdout, hzero⟩ := hs.gap
  have hlen : (rest.take c).length = c := length_take_of_le hc
  have hkept : memcpy s.outbuf (s.outp * 4) (rest.take c) d = 0 :=
    (memcpy_outside _ _ _ _ (.inl hdout)).trans hzero
  rw [SendState.hold, hlen]
  by_cases hfull : s.outlen ≤ s.outp + c
  · rw [if_pos hfull]
    refine .inr ⟨_, ?_, rfl⟩
    intro heq
    have hlength := congrArg length heq
    rw [readBytes_length, vdestreamSend_length hp.sendable] at hlength
    have hmissing : (readBytes (memcpy s.outbuf (s.outp * 4) (rest.take c)) 0 s.outlen)[d]? = some 0 := by
      rw [getElem?_eq_getElem (by rw [readBytes_length]; omega), readBytes_getElem, Nat.zero_add, hkept]
    rw [heq, loud_byte hp hloud hd2 hdp] at hmissing
    exact absurd hmissing (by decide)
  rw [if_neg hfull]
  refine .inl ⟨⟨hs.live, ?_, ?_, ⟨d, hd2, hdp, ?_, hkept⟩, ?_⟩, rfl⟩
  · exact Nat.le_trans hs.begun (Nat.le_add_right _ _)
  · exact Nat.not_le.mp hfull
  · dsimp only
    omega
  · intro houtlen
    obtain ⟨more, hrest⟩ := hs.next houtlen
    have hin : c ≤ ((vdestreamSend p).drop s.outp).length := by
      rw [length_drop, vdestreamSend_length hp.sendable]
      dsimp only at houtlen
      omega
    refine ⟨more, ?_⟩
    rw [hrest, drop_append_of_le_length hin, drop_drop]

lemma StuckAt.send (hc : c ≤ rest.length) (hc2 : 2 ≤ c) :
    StuckAt p (rest.drop c) (sendVde c s (rest.take c)) ∧ (sendVde c s (rest.take c)).written = s.written ∨
    ∃ bad more, bad ≠ vdestreamSend p ∧ (sendVde c s (rest.take c)).written = s.written ++ bad :: more := by
  have hlen : (rest.take c).length = c := length_take_of_le hc
  have hshort := hs.short
  have hexpects : s.expects (rest.take c) = s.outlen := expects_inside (Nat.ne_of_gt hs.begun)
  obtain ⟨turns, rfl⟩ : ∃ turns, c = turns + 1 := Nat.exists_eq_add_of_le' (Nat.le_of_succ_le hc2)
  by_cases hle : s.outlen ≤ turns + 1
  · rw [sendVde_through hexpects (by omega) (by omega)]
    obtain ⟨more, hmore⟩ := sendVde_written turns
      { s with outlen := s.outlen, written := s.written ++ [(rest.take (turns + 1)).take s.outlen] }
      ((rest.take (turns + 1)).drop s.outlen)
    refine .inr ⟨_, more, hs.through hp hloud hc hle, ?_⟩
    rw [hmore, append_assoc]
    rfl
  rw [sendVde_hold hexpects (by omega) (by omega)]
  rcases hs.hold hp hloud hc with hstuck | ⟨bad, hbad, hwritten⟩
  · exact .inl hstuck
  · exact .inr ⟨bad, [], hbad, hwritten⟩

lemma StuckAt.chunks {cuts : List Nat} (hcuts : ∀ c ∈ cuts, 2 ≤ c) (hsum : cuts.sum ≤ rest.length) :
    (sendChunks s (cuts.splitLengths rest)).written = s.written ∨ ∃ bad more, bad ≠ vdestreamSend p ∧
    (sendChunks s (cuts.splitLengths rest)).written = s.written ++ bad :: more := by
  induction cuts generalizing s rest with
  | nil => exact .inl rfl
  | cons c cuts ih =>
    rw [sum_cons] at hsum
    rw [sendChunks_live hs.live (by omega)]
    rcases hs.send hp hloud (by omega) (hcuts c mem_cons_self) with ⟨hstuck, hsame⟩ | ⟨bad, more, hbad, hwritten⟩
    · have hrest : cuts.sum ≤ (rest.drop c).length := by
        rw [length_drop]
        omega
      have hlater := ih hstuck (fun c hc => hcuts c (mem_cons_of_mem _ hc)) hrest
      rw [hsame] at hlater
      exact hlater
    obtain ⟨after, hafter⟩ := sendChunks_written (sendVde c s (rest.take c)) (cuts.splitLengths (rest.drop c))
    refine .inr ⟨bad, more ++ after, hbad, ?_⟩
    rw [hafter, hwritten, append_assoc, cons_append]

end

lemma expects_cut {r : Nat} (hp : Payload p) (hout : s.outp = 0) (hr : 0 < r) (hrp : r < 2 + p.length)
    (hstale : r = 1 → 1 < s.outlen) : r < s.expects ((vdestreamSend p).take r) := by
  have hsend := vdestreamSend_length hp.sendable
  have htail : ((vdestreamSend p).take r).length = r := length_take_of_le (by omega)
  by_cases hone : r = 1
  · have hexpects : s.expects ((vdestreamSend p).take r) = s.outlen := expects_byte (by omega)
    rw [hexpects, hone]
    exact hstale hone
  have hexpects : s.expects ((vdestreamSend p).take r) = frameLength ((vdestreamSend p).take r) :=
    expects_begin hout (by omega)
  have hfirst : ((vdestreamSend p).take r).getD 0 0 = (vdestreamSend p ++ []).getD 0 0 := by
    rw [append_nil, getD_eq_getElem?_getD, getD_eq_getElem?_getD, getElem?_take_of_lt hr]
  have hsecond : ((vdestreamSend p).take r).getD 1 0 = (vdestreamSend p ++ []).getD 1 0 := by
    rw [append_nil, getD_eq_getElem?_getD, getD_eq_getElem?_getD,
      getElem?_take_of_lt (by omega)]
  have htake : frameLength ((vdestreamSend p).take r) = frameLength (vdestreamSend p ++ []) := by
    rw [frameLength, frameLength, hfirst, hsecond]
  rw [hexpects, htake, frameLength_send hp]
  exact hrp

lemma stuckAt_hold {r n : Nat} (hp : Payload p) (hlive : s.hangs = false) (hout : s.outp = 0)
    (hzero : ∀ i, s.outbuf i = 0) (hr : 0 < r) (hrp : r < 2 + p.length) (hrn : r < n) (more : List UInt8) :
    StuckAt p ((vdestreamSend p).drop r ++ more) (s.hold n ((vdestreamSend p).take r)) ∧
    (s.hold n ((vdestreamSend p).take r)).written = s.written := by
  have hsend := vdestreamSend_length hp.sendable
  have htail : ((vdestreamSend p).take r).length = r := length_take_of_le (by omega)
  have hpos := hp.1
  rw [SendState.hold, htail, hout, Nat.zero_mul, Nat.zero_add, if_neg (Nat.not_le.mpr hrn)]
  refine ⟨⟨hlive, hr, hrn, ⟨max 2 r, by omega, by omega, by dsimp only; omega, ?_⟩, fun _ => ⟨more, rfl⟩⟩, rfl⟩
  exact (memcpy_outside _ _ _ _ (.inr (by omega))).trans (hzero _)

lemma stuckAt_cut {r : Nat} (hqs : ∀ q ∈ qs, Payload q) (hp : Payload p)
    (hlive : s.hangs = false) (hout : s.outp = 0) (hzero : ∀ i, s.outbuf i = 0) (hr : 0 < r) (hrp : r < 2 + p.length)
    (hc : 2 ≤ (streamOf qs).length + r) (more : List UInt8) :
    StuckAt p ((vdestreamSend p).drop r ++ more)
        (sendVde ((streamOf qs).length + r) s (streamOf qs ++ (vdestreamSend p).take r)) ∧
      (sendVde ((streamOf qs).length + r) s (streamOf qs ++ (vdestreamSend p).take r)).written =
        s.written ++ qs.map vdestreamSend := by
  have hlen := streamOf_length_ge hqs
  have hsend := vdestreamSend_length hp.sendable
  have htail : ((vdestreamSend p).take r).length = r := length_take_of_le (by omega)
  obtain ⟨turns, hturns⟩ : ∃ turns, (streamOf qs).length + r = qs.length + (turns + 1) :=
    ⟨(streamOf qs).length + r - qs.length - 1, by omega⟩
  have hstale : r = 1 → 1 < (qs.map (fun p => 2 + p.length)).getLastD s.outlen := by
    intro hone
    have hne : qs.map (fun p => 2 + p.length) ≠ [] := by
      intro hnil
      rw [map_eq_nil_iff.mp hnil] at hc
      simp only [streamOf, map_nil, flatten_nil, length_nil] at hc
      omega
    rw [getLastD_eq_getLast?, getLast?_eq_some_getLast hne, Option.getD_some]
    obtain ⟨q, -, hq⟩ := mem_map.mp (getLast_mem hne)
    omega
  rw [hturns, sendVde_frames hqs hout]
  have hrn := @expects_cut p
    { s with
      outlen := (qs.map (fun p => 2 + p.length)).getLastD s.outlen
      written := s.written ++ qs.map vdestreamSend } r hp hout hr hrp hstale
  rw [sendVde_hold rfl (by omega) (by rw [htail]; exact hrn)]
  exact @stuckAt_hold p
    { s with
      outlen := (qs.map (fun p => 2 + p.length)).getLastD s.outlen
      written := s.written ++ qs.map vdestreamSend } r _ hp hlive hout hzero hr hrp hrn more

/-! ### Chunks and frames -/

lemma advance_inside {ps : List (List UInt8)} (h : (advance ps n).2.1 = p :: qs) :
    (advance ps n).2.2 < 2 + p.length := by
  induction ps generalizing n with
  | nil => exact absurd h.symm (cons_ne_nil _ _)
  | cons q ps ih =>
    by_cases hlt : n < 2 + q.length
    · rw [advance_lt hlt] at h ⊢
      rw [← (List.cons.inj h).1]
      exact hlt
    rw [advance_ge (Nat.not_lt.mp hlt)] at h ⊢
    exact ih h

lemma streamOf_append (ps qs : List (List UInt8)) : streamOf (ps ++ qs) = streamOf ps ++ streamOf qs := by
  rw [streamOf, streamOf, streamOf, map_append, flatten_append]

lemma exists_cut (hps : ∀ p ∈ ps, Payload p) (hc : c ≤ (streamOf ps).length) : ∃ qs rest r, ps = qs ++ rest ∧ c =
    (streamOf qs).length + r ∧ (r = 0 ∨ ∃ p later, rest = p :: later ∧ r < 2 + p.length) := by
  have hsend := fun p (hp : p ∈ ps) => (hps p hp).sendable
  refine ⟨(advance ps c).1, (advance ps c).2.1, (advance ps c).2.2, (advance_split ps c).symm, advance_bytes hsend c, ?_⟩
  cases hnext : (advance ps c).2.1 with
  | nil =>
    have hle := advance_le hsend hc
    rw [hnext] at hle
    exact .inl (Nat.le_zero.mp hle)
  | cons p later => exact .inr ⟨p, later, rfl, advance_inside hnext⟩

lemma streamOf_lens {lens : List Nat} (hps : ∀ p ∈ ps, Payload p) (hlens : ps.map length = lens) :
    (streamOf ps).length = (lens.map (2 + ·)).sum := by
  rw [streamOf_length (fun p hp => (hps p hp).sendable), ← hlens, map_map]
  rfl

end

lemma sendChunks_whole {ps : List (List UInt8)} (hps : ∀ p ∈ ps, Payload p) {lens cuts : List Nat}
    (hlens : ps.map length = lens) (hcuts : CutsAtFrames lens cuts) (hsum : cuts.sum = (lens.map (2 + ·)).sum)
    {s : SendState} (hout : s.outp = 0) (hlive : s.hangs = false) :
    (sendChunks s (cuts.splitLengths (streamOf ps))).written = s.written ++ ps.map vdestreamSend ∧
    (sendChunks s (cuts.splitLengths (streamOf ps))).outside = s.outside ∧
    (sendChunks s (cuts.splitLengths (streamOf ps))).hangs = false := by
  induction cuts generalizing ps lens s with
  | nil =>
    have hlen := streamOf_lens hps hlens
    have hge := streamOf_length_ge hps
    rw [← hsum, sum_nil] at hlen
    have hnil : ps = [] := length_eq_zero_iff.mp (by omega)
    rw [hnil, map_nil, append_nil]
    exact ⟨rfl, rfl, hlive⟩
  | cons c cuts ih =>
    obtain ⟨j, hj, hrest⟩ := hcuts
    have hfirst : ∀ p ∈ ps.take j, Payload p := fun p hp => hps p (mem_of_mem_take hp)
    have hlater : ∀ p ∈ ps.drop j, Payload p := fun p hp => hps p (mem_of_mem_drop hp)
    have hc : (streamOf (ps.take j)).length = c := by
      rw [streamOf_lens hfirst (by rw [map_take, hlens]), hj]
    have hstream : streamOf ps = streamOf (ps.take j) ++ streamOf (ps.drop j) := by
      rw [← streamOf_append, take_append_drop]
    have htotal : c + ((lens.drop j).map (2 + ·)).sum = (lens.map (2 + ·)).sum := by
      rw [← hj, ← sum_append, ← map_append, take_append_drop]
    rw [sum_cons] at hsum
    obtain ⟨outlen, hsend⟩ := sendVde_whole hfirst hout
    have hle : c ≤ (streamOf ps).length := by
      rw [hstream, length_append]
      omega
    rw [sendChunks_live hlive hle, hstream, ← hc, take_left, drop_left, hsend]
    obtain ⟨hwritten, houtside, hhangs⟩ := @ih (ps.drop j) hlater (lens.drop j) (by rw [map_drop, hlens]) hrest
      (by omega)
      { s with outlen := outlen, written := s.written ++ (ps.take j).map vdestreamSend } hout hlive
    refine ⟨?_, houtside, hhangs⟩
    rw [hwritten, append_assoc, ← map_append, take_append_drop]

lemma cut_not_written {p : List UInt8} {later : List (List UInt8)} {r : Nat} {cuts : List Nat} {s : SendState}
    (hqs : ∀ q ∈ qs, Payload q) (hp : Payload p) (hloud : Loud p) (hlive : s.hangs = false) (hout : s.outp = 0)
    (hzero : ∀ i, s.outbuf i = 0) (hr : 0 < r) (hrp : r < 2 + p.length) (hc : 2 ≤ (streamOf qs).length + r)
    (hcuts : ∀ c ∈ cuts, 2 ≤ c)
    (hsum : (streamOf qs).length + r + cuts.sum ≤ (streamOf (qs ++ p :: later)).length) :
    (sendChunks s ((((streamOf qs).length + r) :: cuts).splitLengths (streamOf (qs ++ p :: later)))).written ≠
      s.written ++ (qs ++ p :: later).map vdestreamSend := by
  intro hwritten
  have hfull := vdestreamSend_length hp.sendable
  have hchunk : (streamOf qs ++ (vdestreamSend p).take r).length = (streamOf qs).length + r := by
    rw [length_append, length_take_of_le (by omega)]
  have hsplit : streamOf (qs ++ p :: later) =
      (streamOf qs ++ (vdestreamSend p).take r) ++ ((vdestreamSend p).drop r ++ streamOf later) := by
    rw [streamOf_append, streamOf_cons, append_assoc, ← append_assoc ((vdestreamSend p).take r),
      take_append_drop]
  have hfirst : (streamOf (qs ++ p :: later)).take ((streamOf qs).length + r) =
      streamOf qs ++ (vdestreamSend p).take r := by
    rw [hsplit, ← hchunk, take_left]
  have hrest : (streamOf (qs ++ p :: later)).drop ((streamOf qs).length + r) =
      (vdestreamSend p).drop r ++ streamOf later := by
    rw [hsplit, ← hchunk, drop_left]
  have hlater : cuts.sum ≤ ((vdestreamSend p).drop r ++ streamOf later).length := by
    rw [← hrest, length_drop]
    omega
  obtain ⟨hstuck, hsame⟩ := stuckAt_cut hqs hp hlive hout hzero hr hrp hc (streamOf later)
  rw [sendChunks_live hlive (by omega), hfirst, hrest, map_append, map_cons] at hwritten
  rcases hstuck.chunks hp hloud hcuts hlater with hend | ⟨bad, more, hbad, hend⟩
  · rw [hend, hsame, ← append_assoc] at hwritten
    have hnone := append_right_eq_self.mp hwritten.symm
    exact absurd hnone (cons_ne_nil _ _)
  rw [hend, hsame, ← append_assoc] at hwritten
  have htail := append_cancel_left hwritten
  exact absurd (List.cons.inj htail).1 hbad

lemma cutsAtFrames_of_written {ps : List (List UInt8)} (hps : ∀ p ∈ ps, Payload p) (hloud : ∀ p ∈ ps, Loud p)
    {lens cuts : List Nat} (hlens : ps.map length = lens) (hcuts : ∀ c ∈ cuts, 2 ≤ c)
    (hsum : cuts.sum = (streamOf ps).length) {s : SendState} (hout : s.outp = 0) (hlive : s.hangs = false)
    (hzero : ∀ i, s.outbuf i = 0)
    (hwritten : (sendChunks s (cuts.splitLengths (streamOf ps))).written = s.written ++ ps.map vdestreamSend) :
    CutsAtFrames lens cuts := by
  induction cuts generalizing ps lens s with
  | nil => trivial
  | cons c cuts ih =>
    have hc := hcuts c mem_cons_self
    have hcuts' : ∀ c ∈ cuts, 2 ≤ c := fun c hc => hcuts c (mem_cons_of_mem _ hc)
    rw [sum_cons] at hsum
    obtain ⟨qs, rest, r, rfl, hcount, hcut⟩ := exists_cut hps (show c ≤ (streamOf ps).length by omega)
    have hqs : ∀ q ∈ qs, Payload q := fun q hq => hps q (mem_append_left _ hq)
    have hrest : ∀ q ∈ rest, Payload q := fun q hq => hps q (mem_append_right _ hq)
    by_cases hr : r = 0
    · rw [hr, Nat.add_zero] at hcount
      rw [map_append] at hlens
      have hfirst : qs.map length = lens.take qs.length := by
        rw [← hlens, take_left' (length_map _)]
      have hlater : rest.map length = lens.drop qs.length := by
        rw [← hlens, drop_left' (length_map _)]
      refine ⟨qs.length, ((streamOf_lens hqs hfirst).symm).trans hcount.symm, ?_⟩
      obtain ⟨outlen, hsent⟩ := sendVde_whole hqs hout
      rw [sendChunks_live hlive (by omega), streamOf_append, hcount, take_left, drop_left, hsent,
        map_append, ← append_assoc] at hwritten
      rw [streamOf_append, length_append] at hsum
      exact @ih rest hrest (fun q hq => hloud q (mem_append_right _ hq)) _ hlater hcuts' (by omega)
        { s with outlen := outlen, written := s.written ++ qs.map vdestreamSend } hout hlive hzero hwritten
    obtain ⟨p, later, rfl, hrp⟩ := hcut.resolve_left hr
    rw [hcount] at hwritten
    exact absurd hwritten (cut_not_written hqs (hrest p mem_cons_self)
      (hloud p (mem_append_right _ mem_cons_self)) hlive hout hzero (Nat.pos_of_ne_zero hr) hrp (by omega)
      hcuts' (by omega))

/-- For frames of given lengths, cut into chunks of given lengths, `send_vde` writes the frames whatever they
contain exactly if every chunk consists of whole frames. -/
theorem send_vde_iff {lens cuts : List Nat} (hlens : ∀ n ∈ lens, 1 ≤ n ∧ n ≤ 1518) (hcuts : ∀ c ∈ cuts, 2 ≤ c)
    (hsum : cuts.sum = (lens.map (2 + ·)).sum) :
    (∀ ps : List (List UInt8), ps.map length = lens → SendsFrames ps cuts) ↔ CutsAtFrames lens cuts := by
  have hpayload : ∀ ps : List (List UInt8), ps.map length = lens → ∀ p ∈ ps, Payload p := by
    intro ps hps p hp
    exact hlens _ (hps ▸ mem_map_of_mem hp)
  constructor
  · intro h
    have hps : (lens.map (fun n => replicate n (255 : UInt8))).map length = lens := by
      simp [Function.comp_def]
    have hloud : ∀ p ∈ lens.map (fun n => replicate n (255 : UInt8)), Loud p := by
      intro p hp b hb
      obtain ⟨n, -, rfl⟩ := mem_map.mp hp
      exact eq_of_mem_replicate hb
    exact cutsAtFrames_of_written (hpayload _ hps) hloud hps hcuts
      (hsum.trans (streamOf_lens (hpayload _ hps) hps).symm) rfl rfl (fun _ => rfl) (h _ hps).1
  intro h ps hps
  exact sendChunks_whole (hpayload ps hps) hps h hsum rfl rfl

theorem send_vde_two : SendsFrames [[0xAA], [0xBB, 0xCC]] [7] :=
  (@send_vde_iff [1, 2] [7] (by decide) (by decide) rfl).mpr ⟨2, rfl, trivial⟩ [[0xAA], [0xBB, 0xCC]] rfl

/-- A frame of four bytes in two chunks of two. -/
theorem halved_frame_lost : ¬SendsFrames [[0xAA, 0xBB]] [2, 2] := by
  intro h
  exact absurd h.1 (by decide)

end Vde
