import Mathlib.Algebra.Ring.Nat
import Vde.Stream

/-!
# Framing of the packet stream

The packets sent are a list `ps`; the receiver's place in the byte stream is described by the
packets not delivered yet and the number of bytes of them already consumed. `advance` moves that
place by a chunk. The receiver follows it as long as no chunk ends between the two bytes of a
header; when one does, the first header byte is dropped and a packet can no longer be delivered.
-/

namespace Vde

open List

def Sendable (p : List UInt8) : Prop := 1 ≤ p.length ∧ p.length ≤ maxPacket

def streamOf (ps : List (List UInt8)) : List UInt8 := (ps.map vdestreamSend).flatten

variable {p : List UInt8}

lemma vdestreamSend_eq (h : Sendable p) :
    vdestreamSend p = UInt8.ofNat (p.length / 256) :: UInt8.ofNat (p.length % 256) :: p := by
  have hand : p.length &&& 0xff = p.length % 256 := Nat.and_two_pow_sub_one_eq_mod p.length 8
  simp [vdestreamSend, h.2, hand, Nat.shiftRight_eq_div_pow]

lemma vdestreamSend_length (h : Sendable p) : (vdestreamSend p).length = 2 + p.length := by
  rw [vdestreamSend_eq h]
  simp
  omega

variable {n : Nat}

lemma header_value (h : n ≤ maxPacket) :
    ((UInt8.ofNat (n / 256)).toNat <<< 8) + (UInt8.ofNat (n % 256)).toNat = n := by
  have hmax : n ≤ 1521 := h
  simp only [UInt8.toNat_ofNat', Nat.shiftLeft_eq]
  omega

lemma streamOf_cons (p : List UInt8) (ps : List (List UInt8)) :
    streamOf (p :: ps) = vdestreamSend p ++ streamOf ps := by
  simp [streamOf]

/-- The place reached from the start of `ps` after `n` bytes: the packets completed, the packets
still to come and the bytes consumed of them. -/
def advance : List (List UInt8) → Nat → List (List UInt8) × List (List UInt8) × Nat
  | [], n => ([], [], n)
  | p :: ps, n =>
    if n < 2 + p.length then ([], p :: ps, n)
    else
      let r := advance ps (n - (2 + p.length))
      (p :: r.1, r.2.1, r.2.2)

def InHeader (ps : List (List UInt8)) (n : Nat) : Prop :=
  ∃ j < ps.length, n = (streamOf (ps.take j)).length + 1

def CutsHeader (ps cs : List (List UInt8)) : Prop :=
  ∃ k ≤ cs.length, InHeader ps (cs.take k).flatten.length

inductive InSync (st : VdeStream) : List (List UInt8) → Nat → Prop
  | boundary (ps : List (List UInt8)) (h : st.rnx = 0) : InSync st ps 0
  | inside (p : List UInt8) (ps : List (List UInt8)) (k : Nat) (hk : k < p.length)
      (hrnx : st.rnx = p.length) (hfragp : st.fragp = k)
      (hrem : st.remaining = p.length - k)
      (hfrag : readBytes st.fragment 0 k = p.take k) : InSync st (p :: ps) (2 + k)

variable {ps : List (List UInt8)}

lemma advance_lt (h : n < 2 + p.length) : advance (p :: ps) n = ([], p :: ps, n) := by
  simp [advance, h]

lemma advance_ge (h : 2 + p.length ≤ n) : advance (p :: ps) n =
    (p :: (advance ps (n - (2 + p.length))).1, (advance ps (n - (2 + p.length))).2) := by
  have hn : ¬n < 2 + p.length := by omega
  simp [advance, hn]

lemma advance_split (ps : List (List UInt8)) (n : Nat) : (advance ps n).1 ++ (advance ps n).2.1 = ps := by
  induction ps generalizing n with
  | nil => rfl
  | cons p ps ih =>
    by_cases h : n < 2 + p.length
    · simp [advance_lt h]
    · simp [advance_ge (Nat.le_of_not_lt h), ih]

lemma advance_add (ps : List (List UInt8)) (n m : Nat) : (advance ps (n + m)).2 =
    (advance (advance ps n).2.1 ((advance ps n).2.2 + m)).2 ∧ (advance ps (n + m)).1 =
    (advance ps n).1 ++ (advance (advance ps n).2.1 ((advance ps n).2.2 + m)).1 := by
  induction ps generalizing n with
  | nil => simp [advance]
  | cons p ps ih =>
    by_cases h : n < 2 + p.length
    · simp [advance_lt h]
    have hn : 2 + p.length ≤ n := by omega
    have hs : n + m - (2 + p.length) = n - (2 + p.length) + m := by omega
    rw [advance_ge hn, advance_ge (by omega : 2 + p.length ≤ n + m), hs]
    obtain ⟨h2, h1⟩ := ih (n - (2 + p.length))
    exact ⟨h2, by simp [h1]⟩

lemma inHeader_iff (hps : ∀ p ∈ ps, Sendable p) (n : Nat) :
    InHeader ps n ↔ (advance ps n).2.1 ≠ [] ∧ (advance ps n).2.2 = 1 := by
  induction ps generalizing n with
  | nil => simp [InHeader, advance]
  | cons p ps ih =>
    have hp := hps p (by simp)
    have hlen : ∀ j, (streamOf ((p :: ps).take (j + 1))).length =
        2 + p.length + (streamOf (ps.take j)).length := by
      intro j
      rw [take_succ_cons, streamOf_cons, length_append, vdestreamSend_length hp]
    by_cases h : n < 2 + p.length
    · rw [advance_lt h]
      constructor
      · rintro ⟨j, hj, he⟩
        cases j with
        | zero => simpa [streamOf] using he
        | succ j =>
          rw [hlen] at he
          omega
      rintro ⟨-, he⟩
      exact ⟨0, by simp, by simpa [streamOf] using he⟩
    rw [advance_ge (Nat.le_of_not_lt h), ← ih (fun q hq => hps q (by simp [hq]))]
    constructor
    · rintro ⟨j, hj, he⟩
      cases j with
      | zero =>
        have h1 : n = 1 := by simpa [streamOf] using he
        have := hp.1
        omega
      | succ j =>
        rw [hlen] at he
        exact ⟨j, by simpa using hj, by omega⟩
    rintro ⟨j, hj, he⟩
    exact ⟨j + 1, by simpa using hj, by rw [hlen]; omega⟩

lemma streamOf_length_cons (hp : Sendable p) (ps : List (List UInt8)) :
    (streamOf (p :: ps)).length = 2 + p.length + (streamOf ps).length := by
  rw [streamOf_cons, length_append, vdestreamSend_length hp]

lemma advance_bytes (hps : ∀ p ∈ ps, Sendable p) (n : Nat) :
    n = (streamOf (advance ps n).1).length + (advance ps n).2.2 := by
  induction ps generalizing n with
  | nil => simp [advance, streamOf]
  | cons p ps ih =>
    have hp := hps p (by simp)
    by_cases h : n < 2 + p.length
    · simp [advance_lt h, streamOf]
    have hrec := ih (fun q hq => hps q (by simp [hq])) (n - (2 + p.length))
    rw [advance_ge (Nat.le_of_not_lt h), streamOf_length_cons hp]
    dsimp only
    omega

lemma advance_sendable (hps : ∀ p ∈ ps, Sendable p) (n : Nat) :
    (∀ p ∈ (advance ps n).1, Sendable p) ∧ ∀ p ∈ (advance ps n).2.1, Sendable p := by
  have hsplit := advance_split ps n
  constructor
  · exact fun p hp => hps p (by rw [← hsplit]; simp [hp])
  · exact fun p hp => hps p (by rw [← hsplit]; simp [hp])

lemma streamOf_advance (ps : List (List UInt8)) (n : Nat) :
    streamOf ps = streamOf (advance ps n).1 ++ streamOf (advance ps n).2.1 := by
  rw [streamOf, streamOf, streamOf, ← flatten_append, ← map_append, advance_split]

lemma drop_advance (hps : ∀ p ∈ ps, Sendable p) (n m : Nat) :
    (streamOf ps).drop (n + m) = (streamOf (advance ps n).2.1).drop ((advance ps n).2.2 + m) := by
  have hbytes := advance_bytes hps n
  rw [streamOf_advance ps n, drop_append]
  have hpast : (streamOf (advance ps n).1).length ≤ n + m := by omega
  rw [drop_eq_nil_of_le hpast, nil_append]
  congr 1
  omega

lemma advance_le (hps : ∀ p ∈ ps, Sendable p)
    (hn : n ≤ (streamOf ps).length) : (advance ps n).2.2 ≤ (streamOf (advance ps n).2.1).length := by
  have hbytes := advance_bytes hps n
  rw [streamOf_advance ps n, length_append] at hn
  omega

lemma inHeader_add (hps : ∀ p ∈ ps, Sendable p) (n m : Nat) :
    InHeader ps (n + m) ↔ InHeader (advance ps n).2.1 ((advance ps n).2.2 + m) := by
  rw [inHeader_iff hps, inHeader_iff (advance_sendable hps n).2, (advance_add ps n m).1]

/-- Where a loop that starts at a packet boundary ends: in step with the stream, or after a
single header byte with nothing remembered of it. -/
def LoopEnd (st : VdeStream) (ps : List (List UInt8)) (b : Nat) : Prop :=
  (ps ≠ [] ∧ b = 1 ∧ st.rnx = 0) ∨ (¬(ps ≠ [] ∧ b = 1) ∧ InSync st ps b)

lemma recvLoop_short (fuel : Nat) (st : VdeStream) (c : List UInt8) (h : c.length ≤ 1) :
    recvLoop fuel st c = ([], st) := by
  match fuel, c with
  | 0, _ => simp [recvLoop]
  | _ + 1, [] => simp [recvLoop]
  | _ + 1, [_] => simp [recvLoop]

lemma recvLoop_advance (hps : ∀ p ∈ ps, Sendable p) (fuel m : Nat) (st : VdeStream)
    (hst : st.rnx = 0) (hm : m ≤ (streamOf ps).length) (hfuel : m ≤ fuel) :
    (recvLoop fuel st ((streamOf ps).take m)).1 = (advance ps m).1.map .frecv ∧
    LoopEnd (recvLoop fuel st ((streamOf ps).take m)).2 (advance ps m).2.1 (advance ps m).2.2 := by
  induction ps generalizing fuel m st with
  | nil =>
    have hm0 : m = 0 := by simpa [streamOf] using hm
    subst hm0
    rw [recvLoop_short _ _ _ (by simp)]
    exact ⟨rfl, .inr ⟨by simp [advance], .boundary _ hst⟩⟩
  | cons p ps ih =>
    have hp := hps p (by simp)
    have hrnx := header_value hp.2
    rw [streamOf_length_cons hp] at hm
    by_cases hlt : m < 2 + p.length
    · rw [advance_lt hlt]
      by_cases h2 : m ≤ 1
      · rw [recvLoop_short _ _ _ (by simp; omega)]
        refine ⟨rfl, ?_⟩
        by_cases h1 : m = 1
        · exact .inl ⟨by simp, h1, hst⟩
        have h0 : m = 0 := by omega
        subst h0
        exact .inr ⟨by simp, .boundary _ hst⟩
      -- the packet begins in this chunk and is continued in a later one
      obtain ⟨k, rfl⟩ : ∃ k, m = k + 2 := ⟨m - 2, by omega⟩
      obtain ⟨f, rfl⟩ : ∃ f, fuel = f + 1 := ⟨fuel - 1, by omega⟩
      have hk : k < p.length := by omega
      have hbuf : (streamOf (p :: ps)).take (k + 2) =
          UInt8.ofNat (p.length / 256) :: UInt8.ofNat (p.length % 256) :: p.take k := by
        rw [streamOf_cons, vdestreamSend_eq hp]
        simp [take_append, show k - p.length = 0 by omega]
      have hbl : (p.take k).length = k := by simp; omega
      rw [hbuf, recvLoop]
      simp only [hrnx, hbl]
      rw [if_neg (by have := hp.1; omega), if_neg (by have := hp.2; omega), if_pos hk]
      refine ⟨rfl, .inr ⟨by omega, ?_⟩⟩
      rw [Nat.add_comm k 2]
      refine .inside p ps k hk rfl rfl rfl ?_
      have hself := readBytes_memcpy_self st.fragment 0 (p.take k)
      rwa [hbl] at hself
    -- the whole packet lies in this chunk
    have hge : 2 + p.length ≤ m := by omega
    obtain ⟨f, rfl⟩ : ∃ f, fuel = f + 1 := ⟨fuel - 1, by omega⟩
    have hbuf : (streamOf (p :: ps)).take m =
        UInt8.ofNat (p.length / 256) :: UInt8.ofNat (p.length % 256) ::
          (p ++ (streamOf ps).take (m - (2 + p.length))) := by
      rw [streamOf_cons, vdestreamSend_eq hp]
      obtain ⟨k, rfl⟩ : ∃ k, m = p.length + k + 2 := ⟨m - (2 + p.length), by omega⟩
      have hk : p.length + k + 2 - (2 + p.length) = k := by omega
      have htake : p.take (p.length + k) = p := take_of_length_le (by omega)
      simp [take_append, hk, htake]
    have hrec := ih (fun q hq => hps q (by simp [hq])) f (m - (2 + p.length)) { st with rnx := 0 }
      rfl (by omega) (by omega)
    rw [advance_ge hge, hbuf, recvLoop]
    simp only [hrnx]
    rw [if_neg (by have := hp.1; omega), if_neg (by have := hp.2; omega),
      if_neg (by simp)]
    simp only [drop_left', take_left', map_cons]
    exact ⟨by rw [hrec.1], hrec.2⟩

variable {st : VdeStream} {b : Nat}

lemma vdestreamRecv_advance (hps : ∀ p ∈ ps, Sendable p) (hsync : InSync st ps b) (c : List UInt8)
    (hc : c <+: (streamOf ps).drop b) : (vdestreamRecv st c).1 = (advance ps (b + c.length)).1.map .frecv ∧
    LoopEnd (vdestreamRecv st c).2 (advance ps (b + c.length)).2.1 (advance ps (b + c.length)).2.2 := by
  have hlen := hc.length_le
  rw [length_drop] at hlen
  cases hsync with
  | boundary _ h =>
    rw [drop_zero] at hc
    have htake : c = (streamOf ps).take c.length := prefix_iff_eq_take.mp hc
    have hloop := recvLoop_advance hps c.length c.length st h (by omega) le_rfl
    rw [← htake] at hloop
    rw [Nat.zero_add]
    by_cases h0 : c.length = 0
    · rw [recvLoop_short _ _ _ (by omega)] at hloop
      simpa [vdestreamRecv, h0] using hloop
    · simpa [vdestreamRecv, h0, h] using hloop
  | inside p qs k hk hrnx hfragp hrem hfrag =>
    have hp := hps p (by simp)
    have hdrop : (streamOf (p :: qs)).drop (2 + k) = p.drop k ++ streamOf qs := by
      rw [streamOf_cons, vdestreamSend_eq hp, Nat.add_comm]
      simp [drop_append, show k - p.length = 0 by omega]
    rw [hdrop] at hc
    rw [streamOf_length_cons hp] at hlen
    have hpos : 0 < p.length := by omega
    by_cases h0 : c.length = 0
    · have he : advance (p :: qs) (2 + k) = ([], p :: qs, 2 + k) := advance_lt (by omega)
      simp only [vdestreamRecv, h0, if_true, Nat.add_zero, he]
      exact ⟨rfl, .inr ⟨by omega, .inside p qs k hk hrnx hfragp hrem hfrag⟩⟩
    by_cases hlt : c.length < p.length - k
    · -- the chunk does not complete the packet
      have hmin : min st.remaining c.length = c.length := by omega
      have hcp : c = (p.drop k).take c.length := by
        have ht := prefix_iff_eq_take.mp hc
        rwa [take_append_of_le_length (by simp; omega)] at ht
      have he : advance (p :: qs) (2 + k + c.length) = ([], p :: qs, 2 + k + c.length) :=
        advance_lt (by omega)
      have hrem' : st.remaining - c.length ≠ 0 := by omega
      simp only [vdestreamRecv, if_neg h0, hrnx, if_pos hpos, hmin, if_neg hrem', he,
        take_length, drop_length, length_nil]
      rw [recvLoop_short _ _ _ (by simp)]
      refine ⟨rfl, .inr ⟨by omega, ?_⟩⟩
      rw [Nat.add_assoc]
      refine .inside p qs (k + c.length) (by omega) rfl (by simp [hfragp]) (by simp; omega) ?_
      simp only [readBytes_append, Nat.zero_add, hfragp]
      rw [readBytes_memcpy_before _ _ _ _ _ (by omega), hfrag, readBytes_memcpy_self]
      conv_lhs => rw [hcp]
      rw [take_add]
    -- the chunk completes it and the loop goes on with the rest
    have hmin : min st.remaining c.length = p.length - k := by omega
    obtain ⟨c', rfl⟩ : ∃ c', c = p.drop k ++ c' := by
      have hpre : p.drop k <+: c :=
        prefix_of_prefix_length_le (prefix_append _ _) hc (by simp; omega)
      exact hpre.imp (fun _ h => h.symm)
    have hc' : c' <+: streamOf qs := prefix_append_right_inj _ |>.mp hc
    have htake : c' = (streamOf qs).take c'.length := prefix_iff_eq_take.mp hc'
    have hloop := recvLoop_advance (fun q hq => hps q (by simp [hq])) c'.length c'.length
      { st with fragment := memcpy st.fragment k (p.drop k), remaining := 0,
                fragp := k + (p.length - k), rnx := 0 } rfl hc'.length_le le_rfl
    rw [← htake] at hloop
    have hl : (p.drop k ++ c').length = p.length - k + c'.length := by simp
    have hpk : p.length - k = (p.drop k).length := by simp
    have hge : 2 + p.length ≤ 2 + k + (p.drop k ++ c').length := by omega
    have hsub : 2 + k + (p.drop k ++ c').length - (2 + p.length) = c'.length := by omega
    have hwhole : readBytes (memcpy st.fragment k (p.drop k)) 0 p.length = p := by
      conv_lhs => rw [show p.length = k + (p.drop k).length by simp; omega]
      rw [readBytes_append, Nat.zero_add, readBytes_memcpy_before _ _ _ _ _ (by omega), hfrag,
        readBytes_memcpy_self, take_append_drop]
    have hz : st.remaining - (p.length - k) = 0 := by omega
    have htk : (p.drop k ++ c').take (p.length - k) = p.drop k := by rw [hpk, take_left']; rfl
    have hdr : (p.drop k ++ c').drop (p.length - k) = c' := by rw [hpk, drop_left']; rfl
    simp only [vdestreamRecv, if_neg h0, hrnx, if_pos hpos, hmin, hz, if_true, htk, hdr, hfragp,
      hwhole]
    rw [advance_ge hge, hsub]
    exact ⟨by rw [hloop.1]; rfl, hloop.2⟩

def weight (calls : List StreamCall) : Nat := ((received calls).map (fun p => 2 + p.length)).sum

def pending (st : VdeStream) : Nat := if st.rnx = 0 then 0 else 2 + st.fragp

@[simp] lemma weight_nil : weight [] = 0 := rfl

@[simp] lemma weight_frecv (p : List UInt8) (calls : List StreamCall) :
    weight (.frecv p :: calls) = 2 + p.length + weight calls := by
  simp [weight, received]

@[simp] lemma weight_ferr (n m : Nat) (calls : List StreamCall) : weight (.ferr n m :: calls) = weight calls := by
  simp [weight, received]

@[simp] lemma weight_append (xs ys : List StreamCall) : weight (xs ++ ys) = weight xs + weight ys := by
  simp [weight, received]

/-- The fragment buffer holds what the header announced less what is still missing. -/
def Fragmented (st : VdeStream) : Prop := 0 < st.rnx → st.fragp + st.remaining = st.rnx

lemma recvLoop_weight (fuel : Nat) (st : VdeStream) (buf : List UInt8) (hst : st.rnx = 0) :
    weight (recvLoop fuel st buf).1 + pending (recvLoop fuel st buf).2 ≤ buf.length ∧
    Fragmented (recvLoop fuel st buf).2 := by
  induction fuel generalizing st buf with
  | zero => simp [recvLoop, pending, Fragmented, hst]
  | succ fuel ih =>
    match buf with
    | [] => simp [recvLoop, pending, Fragmented, hst]
    | [_] => simp [recvLoop, pending, Fragmented, hst]
    | b0 :: b1 :: buf =>
      simp only [recvLoop, length_cons]
      split
      · have hrec := ih { st with rnx := 0 } buf rfl
        exact ⟨by omega, hrec.2⟩
      split
      · simp [pending, Fragmented]
      split
      · rename_i hpos _ hlt
        refine ⟨?_, ?_⟩
        · simp only [weight_nil, pending, if_neg hpos]
          omega
        intro _
        dsimp only
        omega
      rename_i hlt
      have hrec := ih { st with rnx := 0 }
        (buf.drop ((b0.toNat <<< 8) + b1.toNat)) rfl
      refine ⟨?_, hrec.2⟩
      simp only [weight_frecv, length_take]
      simp only [length_drop] at hrec
      omega

lemma vdestreamRecv_weight (st : VdeStream) (buf : List UInt8) (hst : Fragmented st) :
    weight (vdestreamRecv st buf).1 + pending (vdestreamRecv st buf).2 ≤ pending st + buf.length ∧
    Fragmented (vdestreamRecv st buf).2 := by
  unfold vdestreamRecv
  split
  · exact ⟨by simp, hst⟩
  by_cases hpos : 0 < st.rnx
  · have hne : st.rnx ≠ 0 := by omega
    have hsum := hst hpos
    simp only [if_pos hpos]
    split
    · rename_i hz
      have hloop := recvLoop_weight (buf.drop (min st.remaining buf.length)).length
        { st with fragment := memcpy st.fragment st.fragp
                    (buf.take (min st.remaining buf.length)),
                  remaining := st.remaining - min st.remaining buf.length,
                  fragp := st.fragp + min st.remaining buf.length, rnx := 0 }
        (buf.drop (min st.remaining buf.length)) rfl
      refine ⟨?_, hloop.2⟩
      have h1 := hloop.1
      rw [length_drop] at h1 ⊢
      simp only [weight_frecv, readBytes_length, pending, if_neg hne] at h1 ⊢
      omega
    rename_i hz
    have hmin : min st.remaining buf.length = buf.length := by omega
    rw [recvLoop_short _ _ _ (by simp [hmin])]
    refine ⟨?_, ?_⟩
    · simp only [weight_nil, pending, if_neg hne]
      omega
    intro _
    dsimp only
    omega
  have h0 : st.rnx = 0 := by omega
  simp only [if_neg hpos]
  have hloop := recvLoop_weight buf.length st buf h0
  exact ⟨by omega, hloop.2⟩

lemma recvChunks_weight (st : VdeStream) (cs : List (List UInt8)) (hst : Fragmented st) :
    weight (recvChunks st cs).1 ≤ pending st + cs.flatten.length := by
  induction cs generalizing st with
  | nil => simp [recvChunks]
  | cons c cs ih =>
    obtain ⟨hw, hf⟩ := vdestreamRecv_weight st c hst
    have hrec := ih _ hf
    simp only [recvChunks, weight_append, flatten_cons, length_append]
    omega

lemma streamOf_length (hps : ∀ p ∈ ps, Sendable p) :
    (streamOf ps).length = (ps.map (fun p => 2 + p.length)).sum := by
  induction ps with
  | nil => rfl
  | cons p ps ih =>
    rw [streamOf_length_cons (hps p (by simp)), ih (fun q hq => hps q (by simp [hq]))]
    simp

lemma received_map_frecv (ps : List (List UInt8)) : received (ps.map .frecv) = ps := by
  simp [received, filterMap_map]

lemma received_append (xs ys : List StreamCall) : received (xs ++ ys) = received xs ++ received ys := by
  simp [received]

lemma advance_inSync (h : InSync st ps b) : advance ps b = ([], ps, b) ∧ ¬(ps ≠ [] ∧ b = 1) := by
  cases h with
  | boundary _ _ => cases ps <;> simp [advance]
  | inside p qs k hk _ _ _ _ => exact ⟨advance_lt (by omega), by omega⟩

lemma recvChunks_inSync (hps : ∀ p ∈ ps, Sendable p) (hsync : InSync st ps b) (cs : List (List UInt8))
    (hcs : cs.flatten = (streamOf ps).drop b) (hb : b ≤ (streamOf ps).length) : received (recvChunks st cs).1 = ps ↔
    ∀ k ≤ cs.length, ¬InHeader ps (b + (cs.take k).flatten.length) := by
  induction cs generalizing st ps b with
  | nil =>
    have hbl : b = (streamOf ps).length := by
      have := congrArg length hcs
      simp only [flatten_nil, length_nil, length_drop] at this
      omega
    obtain ⟨hadv, hnot⟩ := advance_inSync hsync
    have hnil : ps = [] := by
      by_contra hne
      cases hsync with
      | boundary _ _ =>
        obtain ⟨p, qs, rfl⟩ := exists_cons_of_ne_nil hne
        rw [streamOf_length_cons (hps p (by simp))] at hbl
        omega
      | inside p qs k hk _ _ _ _ =>
        rw [streamOf_length_cons (hps p (by simp))] at hbl
        omega
    subst hnil
    simp [recvChunks, received, InHeader]
  | cons c cs ih =>
    rw [flatten_cons] at hcs
    have hpre : c <+: (streamOf ps).drop b := ⟨cs.flatten, hcs⟩
    have htot : b + (c.length + cs.flatten.length) = (streamOf ps).length := by
      have := congrArg length hcs
      simp only [length_append, length_drop] at this
      omega
    obtain ⟨hcalls, hend⟩ := vdestreamRecv_advance hps hsync c hpre
    obtain ⟨hadv, hnot⟩ := advance_inSync hsync
    have hbytes := advance_bytes hps (b + c.length)
    have hsplit := advance_split ps (b + c.length)
    obtain ⟨hds, hqs⟩ := advance_sendable hps (b + c.length)
    have hdrop := drop_advance hps (b + c.length) 0
    have hle := advance_le hps (n := b + c.length) (by omega)
    have hshift := inHeader_add hps (b + c.length)
    have hhead := inHeader_iff hps (b + c.length)
    generalize (advance ps (b + c.length)).1 = d at *
    generalize (advance ps (b + c.length)).2.1 = qs at *
    generalize (advance ps (b + c.length)).2.2 = b' at *
    simp only [recvChunks, received_append, hcalls, received_map_frecv]
    rcases hend with ⟨hne, hb1, hrnx⟩ | ⟨hok, hsync'⟩
    · -- the chunk ends inside a header: its last byte is accounted for by no packet
      constructor
      · intro hall
        exfalso
        have hw := recvChunks_weight (vdestreamRecv st c).2 cs (by intro h; omega)
        have hwps : (d.map (fun p => 2 + p.length)).sum +
            weight (recvChunks (vdestreamRecv st c).2 cs).1 = (streamOf ps).length := by
          rw [streamOf_length hps, ← hall]
          simp [weight]
        rw [← streamOf_length hds] at hwps
        simp only [pending, hrnx, if_true] at hw
        omega
      intro hall
      exfalso
      refine hall 1 (by simp) ?_
      simpa using hhead.mpr ⟨hne, hb1⟩
    have hrest : cs.flatten = (streamOf qs).drop b' := by
      rw [Nat.add_zero, Nat.add_zero, ← drop_drop, ← hcs, drop_left] at hdrop
      exact hdrop
    have hrec := ih hqs hsync' hrest hle
    conv_lhs => rw [← hsplit]
    rw [append_cancel_left_eq, hrec]
    constructor
    · intro hall k hk
      cases k with
      | zero =>
        rw [inHeader_iff hps]
        simp [hadv, hnot]
      | succ k =>
        simp only [take_succ_cons, flatten_cons, length_append, ← Nat.add_assoc, hshift]
        exact hall k (by simpa using hk)
    intro hall k hk
    have hnext := hall (k + 1) (by simpa using hk)
    simpa only [take_succ_cons, flatten_cons, length_append, ← Nat.add_assoc, hshift] using hnext

/-- The packets sent arrive one by one and unchanged through any cutting of the byte stream that
does not separate the two bytes of a header, and through no other. -/
theorem vdestream_framing (ps cs : List (List UInt8)) (hps : ∀ p ∈ ps, Sendable p)
    (hcs : cs.flatten = streamOf ps) : received (recvChunks vdestreamOpen cs).1 = ps ↔ ¬CutsHeader ps cs := by
  have h := recvChunks_inSync hps (.boundary ps rfl : InSync vdestreamOpen ps 0) cs
    (by simpa using hcs) (Nat.zero_le _)
  rw [h]
  simp [CutsHeader]

theorem vdestream_framing_two_packets : received (recvChunks vdestreamOpen [[0, 1], [0xAA, 0, 2, 0xBB], [0xCC]]).1 =
    [[0xAA], [0xBB, 0xCC]] ↔ ¬CutsHeader [[0xAA], [0xBB, 0xCC]] [[0, 1], [0xAA, 0, 2, 0xBB], [0xCC]] :=
  vdestream_framing [[0xAA], [0xBB, 0xCC]] [[0, 1], [0xAA, 0, 2, 0xBB], [0xCC]]
    (by simp [Sendable, maxPacket]) (by decide)

/-- One packet of one byte, cut after the first byte of its header, is never delivered. -/
theorem vdestream_header_cut : Sendable [0xAA] ∧ [[0], [1, 0xAA]].flatten = streamOf [[0xAA]] ∧
    received (recvChunks vdestreamOpen [[0], [1, 0xAA]]).1 ≠ [[0xAA]] := by
  refine ⟨by simp [Sendable, maxPacket], by decide, by decide⟩

end Vde
