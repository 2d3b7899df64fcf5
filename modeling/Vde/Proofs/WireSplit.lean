import Vde.Wirefilter
import Vde.Proofs.StreamFraming

/-!
# Splitting the bytes of a wire

`splitpacket` keeps the header together with the packet, so a chunk may end anywhere inside a
packet. The one place where it reads too far is a chunk that ends after the first header byte:
the length is then computed with the byte that happens to lie behind the chunk. The receiver
stays in step with the stream exactly if that byte is the one that comes next.
-/

namespace Vde

open List Function

def wholePackets (dir : Dir) (ps : List (List UInt8)) : List (Dir × List UInt8) :=
  ps.map (fun p => (dir, vdestreamSend p))

inductive InSplit (dir : Dir) (st : SplitState) : List (List UInt8) → Nat → Prop
  | boundary (ps : List (List UInt8)) (h : st.rnx dir = 0) : InSplit dir st ps 0
  | inside (p : List UInt8) (ps : List (List UInt8)) (b : Nat) (hpos : 0 < b) (hb : b < 2 + p.length)
      (hrnx : st.rnx dir = p.length) (hfragp : st.fragp dir = fragmentAt dir + b)
      (hrem : st.remaining dir = 2 + p.length - b)
      (hfrag : readBytes st.fragment (fragmentAt dir) b = (vdestreamSend p).take b) :
      InSplit dir st (p :: ps) b

/-- An unfinished packet has the announced length less what is still missing. -/
def SplitFragmented (dir : Dir) (st : SplitState) : Prop :=
  0 < st.rnx dir → fragmentAt dir ≤ st.fragp dir ∧
    st.fragp dir - fragmentAt dir + st.remaining dir = st.rnx dir + 2

/-- Where the loop of `splitpacket` leaves a direction: in step with the stream, or with a length
made of the first header byte and the wrong byte behind the chunk. -/
inductive SplitEnd (dir : Dir) (after : UInt8) (st : SplitState) : List (List UInt8) → Nat → Prop
  | inStep (ps : List (List UInt8)) (b : Nat) (h : InSplit dir st ps b)
      (hafter : ps ≠ [] → b = 1 → (streamOf ps)[1]? = some after) : SplitEnd dir after st ps b
  | misread (p : List UInt8) (ps : List (List UInt8)) (hafter : (streamOf (p :: ps))[1]? ≠ some after)
      (hrnx : st.rnx dir ≠ p.length) (hfrag : SplitFragmented dir st) :
      SplitEnd dir after st (p :: ps) 1

@[simp] lemma handled_nil : handled [] = [] := rfl

@[simp] lemma handled_handlePacket (dir : Dir) (buf : List UInt8) (calls : List SplitCall) :
    handled (.handlePacket dir buf :: calls) = (dir, buf) :: handled calls := rfl

@[simp] lemma handled_printlog (size rnx : Nat) (calls : List SplitCall) :
    handled (.printlog size rnx :: calls) = handled calls := rfl

@[simp] lemma handled_append (xs ys : List SplitCall) : handled (xs ++ ys) = handled xs ++ handled ys := by
  simp [handled]

lemma splitLoop_nil (dir : Dir) (after : UInt8) (fuel : Nat) (st : SplitState) :
    splitLoop dir after fuel st [] = ([], st) := by
  cases fuel <;> rfl

lemma splitLoop_cons (dir : Dir) (fuel : Nat) (st : SplitState) {after b0 : UInt8} {buf : List UInt8}
    {n : Nat} (h : (b0.toNat <<< 8) + (buf.headD after).toNat = n) :
    splitLoop dir after (fuel + 1) st (b0 :: buf) =
      if maxPacket < n then
        ([.printlog (buf.length + 1) n], { st with rnx := update st.rnx dir 0 })
      else if buf.length + 1 < n + 2 then
        ([], { fragment := memcpy st.fragment (fragmentAt dir) (b0 :: buf)
               fragp := update st.fragp dir (fragmentAt dir + (buf.length + 1))
               rnx := update st.rnx dir n
               remaining := update st.remaining dir (n + 2 - (buf.length + 1)) })
      else
        (.handlePacket dir ((b0 :: buf).take (n + 2)) ::
            (splitLoop dir after fuel { st with rnx := update st.rnx dir 0 }
              ((b0 :: buf).drop (n + 2))).1,
          (splitLoop dir after fuel { st with rnx := update st.rnx dir 0 }
            ((b0 :: buf).drop (n + 2))).2) := by
  subst h
  rfl

variable {p : List UInt8}

lemma streamOf_second (hp : Sendable p) (ps : List (List UInt8)) :
    (streamOf (p :: ps))[1]? = some (UInt8.ofNat (p.length % 256)) := by
  rw [streamOf_cons, vdestreamSend_eq hp]
  rfl

lemma misread_length {n : Nat} {after : UInt8} (h : n ≤ maxPacket) (hafter : after ≠ UInt8.ofNat (n % 256)) :
    ((UInt8.ofNat (n / 256)).toNat <<< 8) + after.toNat ≠ n := by
  intro heq
  apply hafter
  have hmax : n ≤ 1521 := h
  have hlt := after.toNat_lt
  simp only [UInt8.toNat_ofNat', Nat.shiftLeft_eq] at heq
  apply UInt8.toNat_inj.mp
  simp only [UInt8.toNat_ofNat']
  omega

lemma splitLoop_begin (hp : Sendable p) (dir : Dir) (after : UInt8) (fuel : Nat) (st : SplitState)
    (ps : List (List UInt8)) (c : List UInt8) (hpos : 0 < c.length) (hlt : c.length < 2 + p.length)
    (hc : c = (vdestreamSend p).take c.length) (hafter : c.length = 1 → after = UInt8.ofNat (p.length % 256)) :
    (splitLoop dir after (fuel + 1) st c).1 = [] ∧
    InSplit dir (splitLoop dir after (fuel + 1) st c).2 (p :: ps) c.length := by
  have hmax := hp.2
  have hrnx : ∃ b0 buf, c = b0 :: buf ∧ (b0.toNat <<< 8) + (buf.headD after).toNat = p.length := by
    rw [vdestreamSend_eq hp] at hc
    match c, hpos with
    | [b0], _ =>
      simp only [length_singleton, take_succ_cons, take_zero, List.cons.injEq] at hc
      refine ⟨b0, [], rfl, ?_⟩
      rw [hc.1, headD_nil, hafter rfl, header_value hmax]
    | b0 :: b1 :: buf, _ =>
      simp only [length_cons, take_succ_cons, List.cons.injEq] at hc
      refine ⟨b0, b1 :: buf, rfl, ?_⟩
      rw [hc.1, headD_cons, hc.2.1, header_value hmax]
  obtain ⟨b0, buf, rfl, hrnx⟩ := hrnx
  have hsize : buf.length + 1 < p.length + 2 := by
    rw [length_cons] at hlt
    omega
  rw [splitLoop_cons dir fuel st hrnx, if_neg (by omega), if_pos hsize]
  refine ⟨rfl, .inside p ps _ hpos hlt ?_ ?_ ?_ ?_⟩
  · simp
  · simp
  · simp only [update_self, length_cons]
    omega
  · rw [readBytes_memcpy_self]
    exact hc

lemma splitLoop_misread (hp : Sendable p) (dir : Dir) {after : UInt8} (fuel : Nat)
    (st : SplitState) (ps : List (List UInt8)) (hafter : after ≠ UInt8.ofNat (p.length % 256)) :
    handled (splitLoop dir after (fuel + 1) st [UInt8.ofNat (p.length / 256)]).1 = [] ∧
    SplitEnd dir after (splitLoop dir after (fuel + 1) st [UInt8.ofNat (p.length / 256)]).2 (p :: ps) 1 := by
  have hwrong := misread_length hp.2 hafter
  have hstream : (streamOf (p :: ps))[1]? ≠ some after := by
    rw [streamOf_second hp]
    simpa using fun h => hafter h.symm
  generalize hn : ((UInt8.ofNat (p.length / 256)).toNat <<< 8) + after.toNat = n at hwrong
  rw [splitLoop_cons dir fuel st hn]
  by_cases hlong : maxPacket < n
  · rw [if_pos hlong]
    refine ⟨rfl, .misread p ps hstream ?_ ?_⟩
    · have := hp.1
      simp only [update_self]
      omega
    intro h
    simp at h
  rw [if_neg hlong, if_pos (by simp)]
  refine ⟨rfl, .misread p ps hstream ?_ ?_⟩
  · simpa using hwrong
  intro _
  simp only [update_self, length_nil]
  omega

variable {ps : List (List UInt8)}

lemma splitLoop_advance (hps : ∀ p ∈ ps, Sendable p) (dir : Dir)
    (after : UInt8) (fuel m : Nat) (st : SplitState) (hst : st.rnx dir = 0)
    (hm : m ≤ (streamOf ps).length) (hfuel : m ≤ fuel) :
    handled (splitLoop dir after fuel st ((streamOf ps).take m)).1 =
        wholePackets dir (advance ps m).1 ∧
      SplitEnd dir after (splitLoop dir after fuel st ((streamOf ps).take m)).2 (advance ps m).2.1
        (advance ps m).2.2 := by
  induction ps generalizing fuel m st with
  | nil =>
    have hm0 : m = 0 := by simpa [streamOf] using hm
    subst hm0
    rw [take_zero, splitLoop_nil]
    exact ⟨rfl, .inStep _ _ (.boundary _ hst) (by simp [advance])⟩
  | cons p ps ih =>
    have hp := hps p (by simp)
    have hsend := vdestreamSend_length hp
    rw [streamOf_length_cons hp] at hm
    by_cases hlt : m < 2 + p.length
    · have hbuf : (streamOf (p :: ps)).take m = (vdestreamSend p).take m := by
        rw [streamOf_cons, take_append, show m - (vdestreamSend p).length = 0 by omega]
        simp
      have hbl : ((vdestreamSend p).take m).length = m := by
        rw [length_take]
        omega
      rw [advance_lt hlt, hbuf]
      by_cases hm0 : m = 0
      · subst hm0
        rw [take_zero, splitLoop_nil]
        exact ⟨rfl, .inStep _ _ (.boundary _ hst) (by simp)⟩
      obtain ⟨f, rfl⟩ : ∃ f, fuel = f + 1 := ⟨fuel - 1, by omega⟩
      by_cases hbad : m = 1 ∧ after ≠ UInt8.ofNat (p.length % 256)
      · -- the length is read off the byte behind the chunk
        obtain ⟨rfl, hafter⟩ := hbad
        have hone : (vdestreamSend p).take 1 = [UInt8.ofNat (p.length / 256)] := by
          rw [vdestreamSend_eq hp]
          rfl
        rw [hone]
        exact splitLoop_misread hp dir f st ps hafter
      have hin := splitLoop_begin hp dir after f st ps ((vdestreamSend p).take m) (by omega)
        (by omega) (by rw [hbl]) (by rw [hbl]; intro h1; by_contra h; exact hbad ⟨h1, h⟩)
      rw [hbl] at hin
      refine ⟨by rw [hin.1]; rfl, .inStep _ _ hin.2 ?_⟩
      intro _ h1
      rw [streamOf_second hp]
      by_contra h
      exact hbad ⟨h1, fun he => h (by rw [he])⟩
    -- the whole packet lies in this chunk
    have hge : 2 + p.length ≤ m := by omega
    obtain ⟨f, rfl⟩ : ∃ f, fuel = f + 1 := ⟨fuel - 1, by omega⟩
    have hrec := ih (fun q hq => hps q (by simp [hq])) f (m - (2 + p.length))
      { st with rnx := update st.rnx dir 0 } (by simp) (by omega) (by omega)
    have hbuf : (streamOf (p :: ps)).take m =
        vdestreamSend p ++ (streamOf ps).take (m - (2 + p.length)) := by
      rw [streamOf_cons, take_append, hsend, take_of_length_le (by omega)]
    have htake : (vdestreamSend p ++ (streamOf ps).take (m - (2 + p.length))).take (p.length + 2) =
        vdestreamSend p := take_left' (by omega)
    have hdrop : (vdestreamSend p ++ (streamOf ps).take (m - (2 + p.length))).drop (p.length + 2) =
        (streamOf ps).take (m - (2 + p.length)) := drop_left' (by omega)
    rw [advance_ge hge, hbuf]
    rw [vdestreamSend_eq hp] at htake hdrop ⊢
    simp only [cons_append] at htake hdrop ⊢
    rw [splitLoop_cons dir f st (header_value hp.2), if_neg (by have := hp.2; omega),
      if_neg (by simp), htake, hdrop]
    refine ⟨?_, hrec.2⟩
    rw [handled_handlePacket, hrec.1, ← vdestreamSend_eq hp]
    rfl

variable {dir : Dir} {st : SplitState}

lemma splitpacket_advance (hps : ∀ p ∈ ps, Sendable p)
    {b : Nat} (hsync : InSplit dir st ps b) (c : Chunk) (hne : c.buf ≠ [])
    (hc : c.buf <+: (streamOf ps).drop b) :
    handled (splitpacket dir st c).1 = wholePackets dir (advance ps (b + c.buf.length)).1 ∧
      SplitEnd dir c.after (splitpacket dir st c).2 (advance ps (b + c.buf.length)).2.1
        (advance ps (b + c.buf.length)).2.2 := by
  have hlen := hc.length_le
  have h0 : c.buf.length ≠ 0 := by simpa using hne
  rw [length_drop] at hlen
  cases hsync with
  | boundary _ h =>
    rw [drop_zero] at hc
    have htake : c.buf = (streamOf ps).take c.buf.length := prefix_iff_eq_take.mp hc
    have hloop := splitLoop_advance hps dir c.after c.buf.length c.buf.length st h (by omega)
      le_rfl
    rw [← htake] at hloop
    rw [Nat.zero_add]
    simpa [splitpacket, h0, h] using hloop
  | inside p qs b hpos hb hrnx hfragp hrem hfrag =>
    have hp := hps p (by simp)
    have hsend := vdestreamSend_length hp
    have hrpos : 0 < p.length := hp.1
    have hdrop : (streamOf (p :: qs)).drop b = (vdestreamSend p).drop b ++ streamOf qs := by
      rw [streamOf_cons, drop_append, show b - (vdestreamSend p).length = 0 by omega]
      simp
    have hrest : ((vdestreamSend p).drop b).length = 2 + p.length - b := by
      rw [length_drop]
      omega
    rw [hdrop] at hc
    rw [streamOf_length_cons hp] at hlen
    by_cases hlt : c.buf.length < 2 + p.length - b
    · -- the packet is still not complete
      have hmin : min (2 + p.length - b) c.buf.length = c.buf.length := by omega
      have hz : ¬2 + p.length - b - c.buf.length = 0 := by omega
      have hcp : c.buf = ((vdestreamSend p).drop b).take c.buf.length := by
        have := prefix_iff_eq_take.mp hc
        rwa [take_append, show c.buf.length - ((vdestreamSend p).drop b).length = 0 by omega,
          take_zero, append_nil] at this
      have hfull : readBytes (memcpy st.fragment (fragmentAt dir + b) c.buf) (fragmentAt dir)
          (b + c.buf.length) = (vdestreamSend p).take (b + c.buf.length) := by
        rw [readBytes_append, readBytes_memcpy_before _ _ _ _ _ (by omega), hfrag,
          readBytes_memcpy_self, take_add, ← hcp]
      rw [advance_lt (by omega)]
      simp only [splitpacket, if_neg h0, hrnx, if_pos hrpos, hrem, hmin, update_self, hz,
        if_false, take_length, drop_length, splitLoop_nil, hfragp]
      refine ⟨rfl, .inStep _ _ (.inside p qs _ (by omega) (by omega) hrnx ?_ ?_ hfull) (by omega)⟩
      · simp only [update_self]
        omega
      simp only [update_self]
      omega
    have hge : 2 + p.length ≤ b + c.buf.length := by omega
    have hmin : min (2 + p.length - b) c.buf.length = 2 + p.length - b := by omega
    obtain ⟨c', hbuf, hpre⟩ : ∃ c', c.buf = (vdestreamSend p).drop b ++ c' ∧ c' <+: streamOf qs := by
      have htk := prefix_iff_eq_take.mp hc
      rw [take_append, take_of_length_le (by omega)] at htk
      exact ⟨_, htk, take_prefix _ _⟩
    have hc' : c'.length = b + c.buf.length - (2 + p.length) := by
      have := congrArg length hbuf
      rw [length_append] at this
      omega
    have htk : c.buf.take (2 + p.length - b) = (vdestreamSend p).drop b := by
      rw [hbuf]
      exact take_left' hrest
    have hdr : c.buf.drop (2 + p.length - b) = c' := by
      rw [hbuf]
      exact drop_left' hrest
    have hwhole : readBytes (memcpy st.fragment (fragmentAt dir + b) ((vdestreamSend p).drop b))
        (fragmentAt dir) (p.length + 2) = vdestreamSend p := by
      rw [show p.length + 2 = b + ((vdestreamSend p).drop b).length by omega, readBytes_append,
        readBytes_memcpy_before _ _ _ _ _ (by omega), hfrag, readBytes_memcpy_self,
        take_append_drop]
    have htake : c' = (streamOf qs).take c'.length := prefix_iff_eq_take.mp hpre
    have hqs : ∀ q ∈ qs, Sendable q := fun q hq => hps q (by simp [hq])
    have hloop := splitLoop_advance hqs dir c.after c'.length c'.length
      { fragment := memcpy st.fragment (fragmentAt dir + b) ((vdestreamSend p).drop b)
        fragp := update st.fragp dir (fragmentAt dir + b + (2 + p.length - b))
        rnx := update st.rnx dir 0
        remaining := update st.remaining dir (2 + p.length - b - (2 + p.length - b)) }
      (by simp) (by have := hpre.length_le; omega) le_rfl
    rw [← htake] at hloop
    simp only [splitpacket, if_neg h0, hrnx, if_pos hrpos, hrem, hmin, update_self,
      Nat.sub_self, if_true, htk, hdr, hfragp, hwhole] at hloop ⊢
    rw [advance_ge hge, ← hc']
    refine ⟨?_, hloop.2⟩
    rw [handled_handlePacket, hloop.1]
    rfl

def handledBytes (calls : List SplitCall) : Nat := ((handled calls).map (fun h => h.2.length)).sum

/-- The bytes of the stream accounted for by an unfinished packet. -/
def splitPending (dir : Dir) (st : SplitState) : Nat :=
  if st.rnx dir = 0 then 0 else st.fragp dir - fragmentAt dir

@[simp] lemma handledBytes_nil : handledBytes [] = 0 := rfl

@[simp] lemma handledBytes_handlePacket (dir : Dir) (buf : List UInt8) (calls : List SplitCall) :
    handledBytes (.handlePacket dir buf :: calls) = buf.length + handledBytes calls := by
  simp [handledBytes]

@[simp] lemma handledBytes_printlog (size rnx : Nat) (calls : List SplitCall) :
    handledBytes (.printlog size rnx :: calls) = handledBytes calls := rfl

@[simp] lemma handledBytes_append (xs ys : List SplitCall) :
    handledBytes (xs ++ ys) = handledBytes xs + handledBytes ys := by
  simp [handledBytes]

lemma splitLoop_bytes (dir : Dir) (after : UInt8) (fuel : Nat) (st : SplitState) (buf : List UInt8)
    (hst : st.rnx dir = 0) :
    handledBytes (splitLoop dir after fuel st buf).1 +
        splitPending dir (splitLoop dir after fuel st buf).2 ≤ buf.length ∧
      SplitFragmented dir (splitLoop dir after fuel st buf).2 := by
  induction fuel generalizing st buf with
  | zero => simp [splitLoop, splitPending, SplitFragmented, hst]
  | succ fuel ih =>
    match buf with
    | [] => simp [splitLoop, splitPending, SplitFragmented, hst]
    | b0 :: buf =>
      generalize hn : (b0.toNat <<< 8) + (buf.headD after).toNat = n
      rw [splitLoop_cons dir fuel st hn]
      by_cases hlong : maxPacket < n
      · rw [if_pos hlong]
        simp [splitPending, SplitFragmented]
      by_cases hbegin : buf.length + 1 < n + 2
      · rw [if_neg hlong, if_pos hbegin]
        constructor
        · simp only [handledBytes_nil, splitPending, update_self, length_cons]
          split <;> omega
        intro _
        simp only [update_self]
        omega
      rw [if_neg hlong, if_neg hbegin]
      have hrec := ih { st with rnx := update st.rnx dir 0 } ((b0 :: buf).drop (n + 2))
        (by simp)
      refine ⟨?_, hrec.2⟩
      have h1 := hrec.1
      simp only [handledBytes_handlePacket, length_take, length_drop,
        length_cons] at h1 ⊢
      omega

lemma splitpacket_bytes (dir : Dir) (st : SplitState) (c : Chunk) (hst : SplitFragmented dir st) :
    handledBytes (splitpacket dir st c).1 + splitPending dir (splitpacket dir st c).2 ≤
        splitPending dir st + c.buf.length ∧
      SplitFragmented dir (splitpacket dir st c).2 ∧
      (0 < st.rnx dir →
        (∃ p hs, handled (splitpacket dir st c).1 = p :: hs ∧ p.2.length = st.rnx dir + 2) ∨
        handled (splitpacket dir st c).1 = [] ∧ (splitpacket dir st c).2.rnx dir = st.rnx dir) := by
  unfold splitpacket
  by_cases h0 : c.buf.length = 0
  · rw [if_pos h0]
    exact ⟨by simp, hst, fun _ => .inr ⟨rfl, rfl⟩⟩
  rw [if_neg h0]
  by_cases hpos : 0 < st.rnx dir
  · have hne : st.rnx dir ≠ 0 := by omega
    obtain ⟨hle, hsum⟩ := hst hpos
    rw [if_pos hpos]
    dsimp only
    simp only [update_self]
    by_cases hz : st.remaining dir - min (st.remaining dir) c.buf.length = 0
    · rw [if_pos hz]
      have hloop := splitLoop_bytes dir c.after
        (c.buf.drop (min (st.remaining dir) c.buf.length)).length
        { fragment := memcpy st.fragment (st.fragp dir)
            (c.buf.take (min (st.remaining dir) c.buf.length))
          fragp := update st.fragp dir
            (st.fragp dir + min (st.remaining dir) c.buf.length)
          rnx := update st.rnx dir 0
          remaining := update st.remaining dir
            (st.remaining dir - min (st.remaining dir) c.buf.length) }
        (c.buf.drop (min (st.remaining dir) c.buf.length)) (by simp)
      refine ⟨?_, hloop.2, fun _ => .inl ⟨_, _, rfl, by simp⟩⟩
      have h1 := hloop.1
      rw [length_drop] at h1 ⊢
      simp only [handledBytes_handlePacket, readBytes_length, splitPending, if_neg hne] at h1 ⊢
      omega
    rw [if_neg hz]
    have hmin : min (st.remaining dir) c.buf.length = c.buf.length := by omega
    rw [hmin, drop_length, splitLoop_nil]
    refine ⟨?_, ?_, fun _ => .inr ⟨rfl, rfl⟩⟩
    · simp only [handledBytes_nil, splitPending, if_neg hne, update_self]
      omega
    intro _
    simp only [update_self]
    omega
  · have hloop := splitLoop_bytes dir c.after c.buf.length st c.buf (by omega)
    rw [if_neg hpos]
    exact ⟨by omega, hloop.2, fun h => absurd h hpos⟩

lemma splitChunks_bytes (dir : Dir) (st : SplitState) (cs : List Chunk) (hst : SplitFragmented dir st) :
    handledBytes (splitChunks dir st cs).1 ≤ splitPending dir st + (cs.map Chunk.buf).flatten.length := by
  induction cs generalizing st with
  | nil => simp [splitChunks]
  | cons c cs ih =>
    obtain ⟨hw, hf, -⟩ := splitpacket_bytes dir st c hst
    have hrec := ih _ hf
    simp only [splitChunks, handledBytes_append, map_cons, flatten_cons, length_append]
    omega

lemma splitChunks_head (dir : Dir) (st : SplitState) (cs : List Chunk) (hst : SplitFragmented dir st)
    (hpos : 0 < st.rnx dir) (p : Dir × List UInt8) (hs : List (Dir × List UInt8))
    (h : handled (splitChunks dir st cs).1 = p :: hs) : p.2.length = st.rnx dir + 2 := by
  induction cs generalizing st with
  | nil => simp [splitChunks] at h
  | cons c cs ih =>
    obtain ⟨-, hf, hhead⟩ := splitpacket_bytes dir st c hst
    simp only [splitChunks, handled_append] at h
    rcases hhead hpos with ⟨q, qs, hq, hlen⟩ | ⟨hnil, hrnx⟩
    · rw [hq, cons_append, List.cons.injEq] at h
      rw [← h.1, hlen]
    rw [hnil, nil_append] at h
    rw [ih _ hf (by omega) h, hrnx]

def chunkBytes (cs : List Chunk) (k : Nat) : Nat := ((cs.take k).map Chunk.buf).flatten.length

/-- Whenever a chunk ends between the two bytes of a header, the byte behind it in memory is the
byte that comes next on the wire. -/
def HeaderCutsMatch (ps : List (List UInt8)) (cs : List Chunk) : Prop :=
  ∀ k, (h : k < cs.length) → InHeader ps (chunkBytes cs (k + 1)) →
    (streamOf ps)[chunkBytes cs (k + 1)]? = some (cs[k].after)

@[simp] lemma chunkBytes_zero (cs : List Chunk) : chunkBytes cs 0 = 0 := rfl

@[simp] lemma chunkBytes_cons (c : Chunk) (cs : List Chunk) (k : Nat) :
    chunkBytes (c :: cs) (k + 1) = c.buf.length + chunkBytes cs k := by
  simp [chunkBytes]

lemma wholePackets_append (dir : Dir) (ps qs : List (List UInt8)) :
    wholePackets dir (ps ++ qs) = wholePackets dir ps ++ wholePackets dir qs := by
  simp [wholePackets]

lemma wholePackets_bytes (hps : ∀ p ∈ ps, Sendable p) (dir : Dir) :
    ((wholePackets dir ps).map (fun h => h.2.length)).sum = (streamOf ps).length := by
  induction ps with
  | nil => rfl
  | cons p ps ih =>
    rw [streamOf_cons, length_append, ← ih (fun q hq => hps q (by simp [hq]))]
    simp [wholePackets]

lemma splitChunks_misread (hps : ∀ q ∈ p :: ps, Sendable q)
    (hrnx : st.rnx dir ≠ p.length) (hfrag : SplitFragmented dir st) (cs : List Chunk)
    (hlen : (cs.map Chunk.buf).flatten.length + 1 = (streamOf (p :: ps)).length) :
    handled (splitChunks dir st cs).1 ≠ wholePackets dir (p :: ps) := by
  intro hall
  by_cases hpos : 0 < st.rnx dir
  · have hhead := splitChunks_head dir st cs hfrag hpos _ _ hall
    rw [vdestreamSend_length (hps p (by simp))] at hhead
    omega
  have hbytes := splitChunks_bytes dir st cs hfrag
  have hsum := wholePackets_bytes hps dir
  rw [← hall] at hsum
  have hzero : splitPending dir st = 0 := by
    rw [splitPending, if_pos (by omega)]
  rw [handledBytes, hsum] at hbytes
  omega

lemma splitChunks_inSplit (hps : ∀ p ∈ ps, Sendable p)
    {b : Nat} (hsync : InSplit dir st ps b) (cs : List Chunk) (hne : ∀ c ∈ cs, c.buf ≠ [])
    (hcs : (cs.map Chunk.buf).flatten = (streamOf ps).drop b) (hb : b ≤ (streamOf ps).length) :
    handled (splitChunks dir st cs).1 = wholePackets dir ps ↔ ∀ k, (h : k < cs.length) →
    InHeader ps (b + chunkBytes cs (k + 1)) → (streamOf ps)[b + chunkBytes cs (k + 1)]? = some (cs[k].after) := by
  induction cs generalizing st ps b with
  | nil =>
    have hbl : b = (streamOf ps).length := by
      have := congrArg length hcs
      simp only [map_nil, flatten_nil, length_nil, length_drop] at this
      omega
    have hnil : ps = [] := by
      by_contra hcons
      cases hsync with
      | boundary _ _ =>
        obtain ⟨p, qs, rfl⟩ := exists_cons_of_ne_nil hcons
        rw [streamOf_length_cons (hps p (by simp))] at hbl
        omega
      | inside p qs b _ _ _ _ _ _ =>
        rw [streamOf_length_cons (hps p (by simp))] at hbl
        omega
    subst hnil
    simp [splitChunks, wholePackets]
  | cons c cs ih =>
    rw [map_cons, flatten_cons] at hcs
    have hpre : c.buf <+: (streamOf ps).drop b := ⟨_, hcs⟩
    have htot : b + (c.buf.length + (cs.map Chunk.buf).flatten.length) = (streamOf ps).length := by
      have := congrArg length hcs
      simp only [length_append, length_drop] at this
      omega
    obtain ⟨hcalls, hend⟩ := splitpacket_advance hps hsync c (hne c (by simp)) hpre
    have hsplit := advance_split ps (b + c.buf.length)
    obtain ⟨-, hqs⟩ := advance_sendable hps (b + c.buf.length)
    have hdrop := drop_advance hps (b + c.buf.length)
    have hle := advance_le hps (n := b + c.buf.length) (by omega)
    have hshift := inHeader_add hps (b + c.buf.length)
    have hhead := inHeader_iff hps (b + c.buf.length)
    generalize (advance ps (b + c.buf.length)).1 = d at *
    generalize (advance ps (b + c.buf.length)).2.1 = qs at *
    generalize (advance ps (b + c.buf.length)).2.2 = b' at *
    have hbyte : ∀ n, (streamOf ps)[b + c.buf.length + n]? = (streamOf qs)[b' + n]? := by
      intro n
      rw [← head?_drop, ← head?_drop, hdrop]
    have hgoal : handled (splitChunks dir st (c :: cs)).1 = wholePackets dir ps ↔
        handled (splitChunks dir (splitpacket dir st c).2 cs).1 = wholePackets dir qs := by
      rw [← hsplit, wholePackets_append]
      simp only [splitChunks, handled_append, hcalls, append_cancel_left_eq]
    rw [hgoal]
    cases hend with
    | inStep _ _ hsync' hafter =>
      have hrest : (cs.map Chunk.buf).flatten = (streamOf qs).drop b' := by
        have hdrop0 := hdrop 0
        rw [Nat.add_zero, Nat.add_zero, ← drop_drop, ← hcs, drop_left] at hdrop0
        exact hdrop0
      rw [ih hqs hsync' (fun c' hc' => hne c' (by simp [hc'])) hrest hle]
      constructor
      · intro hall k hk hin
        cases k with
        | zero =>
          rw [chunkBytes_cons, chunkBytes_zero, Nat.add_zero, hhead] at hin
          rw [chunkBytes_cons, chunkBytes_zero, ← Nat.add_assoc, hbyte, Nat.add_zero, hin.2]
          exact hafter hin.1 hin.2
        | succ k =>
          rw [chunkBytes_cons, ← Nat.add_assoc, hshift] at hin
          rw [chunkBytes_cons, ← Nat.add_assoc, hbyte]
          exact hall k (by simpa using hk) hin
      intro hall k hk hin
      have := hall (k + 1) (by simpa using hk)
      rw [chunkBytes_cons, ← Nat.add_assoc, hshift, hbyte] at this
      exact this hin
    | misread p qs hafter hrnx hfrag =>
      constructor
      · intro hall
        have hlen := congrArg length (hdrop 0)
        simp only [Nat.add_zero, length_drop] at hlen
        exact absurd hall (splitChunks_misread hqs hrnx hfrag cs (by omega))
      intro hall
      exfalso
      have hfirst := hall 0 (by simp)
      rw [chunkBytes_cons, chunkBytes_zero, ← Nat.add_assoc, hbyte, Nat.add_zero, Nat.add_zero, hhead] at hfirst
      exact hafter (hfirst ⟨by simp, rfl⟩)

/-- The packets of a direction are handled one by one, header included, through any cutting of
the byte stream in which the byte behind every chunk that ends inside a header is the right one,
and through no other. -/
theorem splitpacket_framing (dir : Dir) (ps : List (List UInt8)) (cs : List Chunk) (hps : ∀ p ∈ ps, Sendable p)
    (hne : ∀ c ∈ cs, c.buf ≠ []) (hcs : (cs.map Chunk.buf).flatten = streamOf ps) :
    handled (splitChunks dir splitInit cs).1 = wholePackets dir ps ↔ HeaderCutsMatch ps cs := by
  have h := splitChunks_inSplit hps (.boundary ps rfl : InSplit dir splitInit ps 0) cs hne
    (by simpa using hcs) (Nat.zero_le _)
  rw [h]
  simp [HeaderCutsMatch]

/-- Two packets in three chunks, the second chunk ending after the first byte of a header with
the right byte left behind it. -/
theorem splitpacket_framing_two_packets :
    handled (splitChunks .RL splitInit [⟨[0, 1], 7⟩, ⟨[0xAA, 0], 2⟩, ⟨[2, 0xBB, 0xCC], 0⟩]).1 =
    wholePackets .RL [[0xAA], [0xBB, 0xCC]] := by
  refine (splitpacket_framing .RL [[0xAA], [0xBB, 0xCC]] [⟨[0, 1], 7⟩, ⟨[0xAA, 0], 2⟩, ⟨[2, 0xBB, 0xCC], 0⟩]
    (by simp [Sendable, maxPacket]) (by simp) (by decide)).mpr ?_
  unfold HeaderCutsMatch InHeader
  decide

/-- One packet of one byte, cut after the first byte of its header with a zero left behind it:
the header byte is forgotten and the packet is never handled. -/
theorem splitpacket_header_cut : Sendable [0xAA] ∧ ([⟨[0], 0⟩, ⟨[1, 0xAA], 0⟩].map Chunk.buf).flatten =
    streamOf [[0xAA]] ∧
    handled (splitChunks .LR splitInit [⟨[0], 0⟩, ⟨[1, 0xAA], 0⟩]).1 ≠ wholePackets .LR [[0xAA]] := by
  refine ⟨by simp [Sendable, maxPacket], by decide, by decide⟩

end Vde
