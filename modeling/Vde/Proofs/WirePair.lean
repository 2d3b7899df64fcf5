import Vde.Proofs.WireSplit

/-!
# Two wires through one fragment buffer

The array `fragment` of `splitpacket` is declared `[BUFSIZE][2]`, so the places where the two
directions keep an unfinished packet lie two bytes apart and overlap. As long as no byte is stored
over a byte of the other direction's unfinished packet, each direction sees what it would see
alone.
-/

namespace Vde

open List Function

def Dir.other : Dir → Dir
  | .LR => .RL
  | .RL => .LR

def wireBufsize : Nat := 2048

/-- The bytes at the end of a chunk that begin a packet which does not end there. Behind a length
that is too large the chunk is dropped. -/
def unfinished : Nat → List UInt8 → List UInt8
  | fuel + 1, b0 :: b1 :: buf =>
    if maxPacket < (b0.toNat <<< 8) + b1.toNat then []
    else if buf.length < (b0.toNat <<< 8) + b1.toNat then b0 :: b1 :: buf
    else unfinished fuel (buf.drop ((b0.toNat <<< 8) + b1.toNat))
  | _, buf => buf

def oldBytes (dir : Dir) (st : SplitState) (c : Chunk) : List UInt8 :=
  if 0 < st.rnx dir then c.buf.take (min (st.remaining dir) c.buf.length) else []

def newBytes (dir : Dir) (st : SplitState) (c : Chunk) : List UInt8 :=
  if 0 < st.rnx dir then c.buf.drop (min (st.remaining dir) c.buf.length) else c.buf

def chunkTail (dir : Dir) (st : SplitState) (c : Chunk) : List UInt8 :=
  unfinished (newBytes dir st c).length (newBytes dir st c)

def EndsInHeader (dir : Dir) (st : SplitState) (c : Chunk) : Prop := (chunkTail dir st c).length = 1

/-- A copy of `src` to the offset `dst` of `fragment` leaves the stored bytes of the unfinished
packet of `dir` as they are. -/
def Spares (st : SplitState) (dir : Dir) (dst : Nat) (src : List UInt8) : Prop :=
  0 < st.rnx dir → ∀ k, (h : k < src.length) → fragmentAt dir ≤ dst + k → dst + k < st.fragp dir →
    src[k] = st.fragment (dst + k)

instance (dir : Dir) (st : SplitState) (c : Chunk) : Decidable (EndsInHeader dir st c) :=
  inferInstanceAs (Decidable ((chunkTail dir st c).length = 1))

instance (st : SplitState) (dir : Dir) (dst : Nat) (src : List UInt8) : Decidable (Spares st dir dst src) :=
  inferInstanceAs (Decidable (0 < st.rnx dir → ∀ k, (h : k < src.length) → fragmentAt dir ≤ dst + k →
    dst + k < st.fragp dir → src[k] = st.fragment (dst + k)))

structure WireRun where
  st : SplitState
  calls : List SplitCall
  chunks : List (Dir × Chunk)

def wireStep (s : WireRun) (e : Dir × Chunk) : WireRun :=
  { st := (splitpacket e.1 s.st e.2).2
    calls := s.calls ++ (splitpacket e.1 s.st e.2).1
    chunks := s.chunks ++ [e] }

def wireMachine : Machine WireRun (Dir × Chunk) :=
  { enabled := fun s e => e.2.buf ≠ [] ∧ e.2.buf.length ≤ wireBufsize ∧ ¬EndsInHeader e.1 s.st e.2
    step := wireStep }

def splitStart (mem : Mem) : SplitState := { splitInit with fragment := mem }

def wireStart (mem : Mem) : WireRun := { st := splitStart mem, calls := [], chunks := [] }

def chunksOf (dir : Dir) (es : List (Dir × Chunk)) : List Chunk :=
  (es.filter (fun e => e.1 = dir)).map Prod.snd

/-- Each direction has handled what it handles when its chunks are processed alone, whatever bytes
lie behind them in memory, and no byte behind the block of `fragment` was written. -/
def WireOk (mem : Mem) (s : WireRun) : Prop :=
  (∀ dir cs, cs.map Chunk.buf = (chunksOf dir s.chunks).map Chunk.buf →
    (handled s.calls).filter (fun h => h.1 = dir) = handled (splitChunks dir (splitStart mem) cs).1) ∧
  ∀ i, 2 * wireBufsize ≤ i → s.st.fragment i = mem i

/-- The chunk is not copied over the other direction's unfinished packet: neither the bytes that
continue a packet nor those that begin one. -/
def SparesOther (s : WireRun) (e : Dir × Chunk) : Prop :=
  Spares s.st e.1.other (s.st.fragp e.1) (oldBytes e.1 s.st e.2) ∧
    Spares s.st e.1.other (fragmentAt e.1) (chunkTail e.1 s.st e.2)

/-- The static variables after the loop of `splitpacket`, with the bytes of an unfinished
packet. -/
def splitLeave (dir : Dir) (st : SplitState) : List UInt8 → SplitState
  | [] => { st with rnx := update st.rnx dir 0 }
  | b0 :: buf =>
    { fragment := memcpy st.fragment (fragmentAt dir) (b0 :: buf)
      fragp := update st.fragp dir (fragmentAt dir + (buf.length + 1))
      rnx := update st.rnx dir ((b0.toNat <<< 8) + (buf.headD 0).toNat)
      remaining := update st.remaining dir
        ((b0.toNat <<< 8) + (buf.headD 0).toNat + 2 - (buf.length + 1)) }

/-- The static variables after more bytes of an unfinished packet. -/
def splitExtend (dir : Dir) (st : SplitState) (bytes : List UInt8) : SplitState :=
  { st with
    fragment := memcpy st.fragment (st.fragp dir) bytes
    remaining := update st.remaining dir (st.remaining dir - bytes.length)
    fragp := update st.fragp dir (st.fragp dir + bytes.length) }

def newCalls (dir : Dir) (buf : List UInt8) : List SplitCall :=
  (splitLoop dir 0 buf.length splitInit buf).1

lemma Dir.ne_other (dir : Dir) : dir ≠ dir.other := by
  cases dir <;> simp [Dir.other]

lemma Dir.eq_or_eq_other (dir dir' : Dir) : dir' = dir ∨ dir' = dir.other := by
  cases dir <;> cases dir' <;> simp [Dir.other]

@[simp] lemma splitLeave_rnx_update (dir : Dir) (st : SplitState) (n : Nat) (tail : List UInt8) :
    splitLeave dir { st with rnx := update st.rnx dir n } tail = splitLeave dir st tail := by
  cases tail <;> simp [splitLeave]

variable {tail : List UInt8}

lemma unfinished_header (fuel : Nat) {buf : List UInt8} {b0 b1 : UInt8}
    (h : unfinished fuel buf = b0 :: b1 :: tail) (hfuel : buf.length ≤ fuel) :
    (b0.toNat <<< 8) + b1.toNat ≤ maxPacket ∧ tail.length < (b0.toNat <<< 8) + b1.toNat := by
  induction fuel generalizing buf with
  | zero =>
    have hnil : buf = [] := length_eq_zero_iff.mp (Nat.le_zero.mp hfuel)
    subst hnil
    simp [unfinished] at h
  | succ fuel ih =>
    match buf with
    | [] => simp [unfinished] at h
    | [_] => simp [unfinished] at h
    | c0 :: c1 :: buf =>
      rw [unfinished] at h
      by_cases hlong : maxPacket < (c0.toNat <<< 8) + c1.toNat
      · simp [if_pos hlong] at h
      rw [if_neg hlong] at h
      by_cases hlt : buf.length < (c0.toNat <<< 8) + c1.toNat
      · rw [if_pos hlt] at h
        simp only [List.cons.injEq] at h
        obtain ⟨rfl, rfl, rfl⟩ := h
        exact ⟨by omega, hlt⟩
      rw [if_neg hlt] at h
      apply ih h
      simp only [length_cons, length_drop] at hfuel ⊢
      omega

variable {dir : Dir} {st : SplitState}

lemma splitLeave_nil (hst : st.rnx dir = 0) : splitLeave dir st [] = st := by
  rw [splitLeave, ← hst, update_eq_self]

lemma splitLoop_leave (dir : Dir) (after : UInt8) (fuel : Nat) (st : SplitState) (buf : List UInt8)
    (hst : st.rnx dir = 0) (hfuel : buf.length ≤ fuel) (hcut : (unfinished fuel buf).length ≠ 1) :
    (splitLoop dir after fuel st buf).2 = splitLeave dir st (unfinished fuel buf) := by
  have hidle := splitLeave_nil hst
  induction fuel generalizing st buf with
  | zero =>
    have hnil : buf = [] := length_eq_zero_iff.mp (Nat.le_zero.mp hfuel)
    subst hnil
    exact hidle.symm
  | succ fuel ih =>
    match buf with
    | [] => exact hidle.symm
    | [_] => simp [unfinished] at hcut
    | b0 :: b1 :: buf =>
      rw [unfinished] at hcut ⊢
      rw [@splitLoop_cons dir fuel st after b0 (b1 :: buf) _ rfl]
      simp only [headD_cons, length_cons, drop_succ_cons]
      by_cases hlong : maxPacket < (b0.toNat <<< 8) + b1.toNat
      · rw [if_pos hlong, if_pos hlong]
        rfl
      rw [if_neg hlong] at hcut
      rw [if_neg hlong, if_neg hlong]
      by_cases hlt : buf.length < (b0.toNat <<< 8) + b1.toNat
      · rw [if_pos hlt, if_pos (by omega)]
        rfl
      rw [if_neg hlt] at hcut
      rw [if_neg hlt, if_neg (by omega)]
      dsimp only
      have hfuel' : (buf.drop ((b0.toNat <<< 8) + b1.toNat)).length ≤ fuel := by
        simp only [length_cons, length_drop] at hfuel ⊢
        omega
      rw [ih { st with rnx := update st.rnx dir 0 } _ (by simp) hfuel' hcut (by simp [splitLeave]),
        splitLeave_rnx_update]

lemma splitLoop_calls (dir : Dir) (after after' : UInt8) (fuel : Nat) (st st' : SplitState)
    (buf : List UInt8) (hfuel : buf.length ≤ fuel) (hcut : (unfinished fuel buf).length ≠ 1) :
    (splitLoop dir after fuel st buf).1 = (splitLoop dir after' fuel st' buf).1 := by
  induction fuel generalizing st st' buf with
  | zero => rfl
  | succ fuel ih =>
    match buf with
    | [] => rfl
    | [_] => simp [unfinished] at hcut
    | b0 :: b1 :: buf =>
      rw [unfinished] at hcut
      rw [@splitLoop_cons dir fuel st after b0 (b1 :: buf) _ rfl,
        @splitLoop_cons dir fuel st' after' b0 (b1 :: buf) _ rfl]
      simp only [headD_cons, length_cons, drop_succ_cons]
      by_cases hlong : maxPacket < (b0.toNat <<< 8) + b1.toNat
      · rw [if_pos hlong, if_pos hlong]
      rw [if_neg hlong] at hcut
      rw [if_neg hlong, if_neg hlong]
      by_cases hlt : buf.length < (b0.toNat <<< 8) + b1.toNat
      · rw [if_pos (by omega), if_pos (by omega)]
      rw [if_neg hlt] at hcut
      rw [if_neg (by omega), if_neg (by omega)]
      dsimp only
      rw [ih { st with rnx := update st.rnx dir 0 } { st' with rnx := update st'.rnx dir 0 }
        _ ?_ hcut]
      simp only [length_cons, length_drop] at hfuel ⊢
      omega

lemma splitpacket_cases (dir : Dir) (st : SplitState) (c : Chunk) (hne : c.buf ≠ [])
    (hcut : ¬EndsInHeader dir st c) :
    (st.rnx dir = 0 ∧ oldBytes dir st c = [] ∧
      splitpacket dir st c = (newCalls dir (newBytes dir st c), splitLeave dir st (chunkTail dir st c))) ∨
    (0 < st.rnx dir ∧ c.buf.length < st.remaining dir ∧ oldBytes dir st c = c.buf ∧
      chunkTail dir st c = [] ∧ splitpacket dir st c = ([], splitExtend dir st c.buf)) ∨
    (0 < st.rnx dir ∧ (oldBytes dir st c).length = st.remaining dir ∧
      splitpacket dir st c =
        (.handlePacket dir (readBytes (splitExtend dir st (oldBytes dir st c)).fragment (fragmentAt dir)
            (st.rnx dir + 2)) :: newCalls dir (newBytes dir st c),
          splitLeave dir (splitExtend dir st (oldBytes dir st c)) (chunkTail dir st c))) := by
  have h0 : c.buf.length ≠ 0 := by simpa using hne
  by_cases hpos : 0 < st.rnx dir
  · have hold : oldBytes dir st c = c.buf.take (min (st.remaining dir) c.buf.length) := if_pos hpos
    have hnew : newBytes dir st c = c.buf.drop (min (st.remaining dir) c.buf.length) := if_pos hpos
    by_cases hlt : c.buf.length < st.remaining dir
    · have hmin : min (st.remaining dir) c.buf.length = c.buf.length := by omega
      rw [hmin, take_length] at hold
      rw [hmin, drop_length] at hnew
      refine .inr (.inl ⟨hpos, hlt, hold, by simp [chunkTail, hnew, unfinished], ?_⟩)
      have hz : ¬st.remaining dir - c.buf.length = 0 := by omega
      simp only [splitpacket, if_neg h0, if_pos hpos, hmin, update_self, if_neg hz,
        take_length, drop_length, splitLoop_nil, splitExtend]
    have hmin : min (st.remaining dir) c.buf.length = st.remaining dir := by omega
    rw [hmin] at hold hnew
    have hlen : (oldBytes dir st c).length = st.remaining dir := by
      rw [hold, length_take]
      omega
    refine .inr (.inr ⟨hpos, hlen, ?_⟩)
    have hcut' : (unfinished (newBytes dir st c).length (newBytes dir st c)).length ≠ 1 := hcut
    have hst : splitExtend dir st (oldBytes dir st c) =
        { st with
          fragment := memcpy st.fragment (st.fragp dir) (oldBytes dir st c)
          remaining := update st.remaining dir 0
          fragp := update st.fragp dir (st.fragp dir + st.remaining dir) } := by
      rw [splitExtend, hlen, Nat.sub_self]
    simp only [splitpacket, if_neg h0, if_pos hpos, hmin, update_self, Nat.sub_self, if_true,
      ← hold, ← hnew]
    refine Prod.ext ?_ ?_
    · simp only [hst, newCalls]
      rw [splitLoop_calls dir c.after 0 _ _ splitInit _ le_rfl hcut']
    dsimp only
    have hleave := splitLeave_rnx_update dir (splitExtend dir st (oldBytes dir st c)) 0 (chunkTail dir st c)
    rw [hst] at hleave
    rw [splitLoop_leave dir c.after _ _ _ (by simp) le_rfl hcut', hst]
    exact hleave
  · have hz : st.rnx dir = 0 := by omega
    have hold : oldBytes dir st c = [] := if_neg hpos
    have hnew : newBytes dir st c = c.buf := if_neg hpos
    refine .inl ⟨hz, hold, ?_⟩
    have hcut' : (unfinished c.buf.length c.buf).length ≠ 1 := by
      rw [EndsInHeader, chunkTail, hnew] at hcut
      exact hcut
    simp only [splitpacket, if_neg h0, if_neg hpos, chunkTail, hnew]
    refine Prod.ext ?_ ?_
    · exact splitLoop_calls dir c.after 0 _ st splitInit _ le_rfl hcut'
    · exact splitLoop_leave dir c.after _ st _ hz le_rfl hcut'

structure SameView (dir : Dir) (st st' : SplitState) : Prop where
  rnx : st.rnx dir = st'.rnx dir
  fragp : 0 < st.rnx dir → st.fragp dir = st'.fragp dir
  remaining : 0 < st.rnx dir → st.remaining dir = st'.remaining dir
  stored : 0 < st.rnx dir → readBytes st.fragment (fragmentAt dir) (st.fragp dir - fragmentAt dir) =
    readBytes st'.fragment (fragmentAt dir) (st.fragp dir - fragmentAt dir)

lemma sameView_leave (dir : Dir) (st st' : SplitState) (tail : List UInt8) :
    SameView dir (splitLeave dir st tail) (splitLeave dir st' tail) := by
  cases tail with
  | nil => exact ⟨by simp [splitLeave], by simp [splitLeave], by simp [splitLeave], by simp [splitLeave]⟩
  | cons b0 buf =>
    refine ⟨by simp [splitLeave], by simp [splitLeave], by simp [splitLeave], fun _ => ?_⟩
    have hlen : (splitLeave dir st (b0 :: buf)).fragp dir - fragmentAt dir = (b0 :: buf).length := by
      simp [splitLeave]
    rw [hlen]
    simp only [splitLeave, readBytes_memcpy_self]

variable {st' : SplitState}

lemma SameView.extend (h : SameView dir st st') (hpos : 0 < st.rnx dir) (hle : fragmentAt dir ≤ st.fragp dir)
    (bytes : List UInt8) : SameView dir (splitExtend dir st bytes) (splitExtend dir st' bytes) := by
  have hstored : readBytes (memcpy st.fragment (st.fragp dir) bytes) (fragmentAt dir)
        (st.fragp dir - fragmentAt dir + bytes.length) =
      readBytes (memcpy st'.fragment (st.fragp dir) bytes) (fragmentAt dir)
        (st.fragp dir - fragmentAt dir + bytes.length) := by
    obtain ⟨k, hk⟩ := Nat.exists_eq_add_of_le hle
    have hread := h.stored hpos
    rw [hk, Nat.add_sub_cancel_left] at hread ⊢
    rw [readBytes_memcpy_join, readBytes_memcpy_join, hread]
  refine ⟨h.rnx, fun _ => ?_, fun _ => ?_, fun _ => ?_⟩
  · simp [splitExtend, h.fragp hpos]
  · simp [splitExtend, h.remaining hpos]
  have hlen : (splitExtend dir st bytes).fragp dir - fragmentAt dir =
      st.fragp dir - fragmentAt dir + bytes.length := by
    simp only [splitExtend, update_self]
    omega
  rw [hlen]
  simp only [splitExtend, ← h.fragp hpos]
  exact hstored

variable {c c' : Chunk}

section

variable (h : SameView dir st st')

include h

lemma SameView.oldBytes (hbuf : c.buf = c'.buf) : oldBytes dir st c = oldBytes dir st' c' := by
  by_cases hpos : 0 < st.rnx dir
  · rw [Vde.oldBytes, Vde.oldBytes, if_pos hpos, if_pos (h.rnx ▸ hpos), h.remaining hpos, hbuf]
  · rw [Vde.oldBytes, Vde.oldBytes, if_neg hpos, if_neg (h.rnx ▸ hpos)]

lemma SameView.newBytes (hbuf : c.buf = c'.buf) : newBytes dir st c = newBytes dir st' c' := by
  by_cases hpos : 0 < st.rnx dir
  · rw [Vde.newBytes, Vde.newBytes, if_pos hpos, if_pos (h.rnx ▸ hpos), h.remaining hpos, hbuf]
  · rw [Vde.newBytes, Vde.newBytes, if_neg hpos, if_neg (h.rnx ▸ hpos), hbuf]

lemma SameView.chunkTail (hbuf : c.buf = c'.buf) : chunkTail dir st c = chunkTail dir st' c' := by
  rw [Vde.chunkTail, Vde.chunkTail, h.newBytes hbuf]

lemma SameView.splitpacket (hfrag : SplitFragmented dir st) (hbuf : c.buf = c'.buf)
    (hne : c.buf ≠ []) (hcut : ¬EndsInHeader dir st c) : (splitpacket dir st c).1 = (splitpacket dir st' c').1 ∧
    SameView dir (splitpacket dir st c).2 (splitpacket dir st' c').2 := by
  have hcut' : ¬EndsInHeader dir st' c' := by
    rw [EndsInHeader, ← h.chunkTail hbuf]
    exact hcut
  have hold := h.oldBytes hbuf
  have hnew := h.newBytes hbuf
  have htail := h.chunkTail hbuf
  have hrnx := h.rnx
  have hcases' := splitpacket_cases dir st' c' (hbuf ▸ hne) hcut'
  rw [← hold, ← hnew, ← htail, ← hrnx, ← hbuf] at hcases'
  rcases splitpacket_cases dir st c hne hcut with ⟨hz, -, heq⟩ | ⟨hpos, hlt, -, -, heq⟩ | ⟨hpos, hlen, heq⟩
  · rcases hcases' with ⟨-, -, heq'⟩ | ⟨hpos', -⟩ | ⟨hpos', -⟩
    · rw [heq, heq']
      exact ⟨rfl, sameView_leave dir st st' _⟩
    · omega
    · omega
  · have hrem := h.remaining hpos
    rcases hcases' with ⟨hz', -⟩ | ⟨-, -, -, -, heq'⟩ | ⟨-, hlen', -⟩
    · omega
    · rw [heq, heq']
      exact ⟨rfl, h.extend hpos (hfrag hpos).1 c.buf⟩
    have hshort : (Vde.oldBytes dir st c).length ≤ c.buf.length := by
      rw [Vde.oldBytes, if_pos hpos]
      exact length_take_le' _ _
    omega
  have hrem := h.remaining hpos
  rcases hcases' with ⟨hz', -⟩ | ⟨-, hlt', hwhole, -⟩ | ⟨-, -, heq'⟩
  · omega
  · rw [hwhole] at hlen
    omega
  obtain ⟨hle, hsum⟩ := hfrag hpos
  have hlast : (splitExtend dir st (Vde.oldBytes dir st c)).fragp dir - fragmentAt dir = st.rnx dir + 2 := by
    simp only [splitExtend, update_self, hlen]
    omega
  have hstored := (h.extend hpos hle (Vde.oldBytes dir st c)).stored hpos
  rw [hlast] at hstored
  rw [heq, heq', hstored]
  exact ⟨rfl, sameView_leave dir _ _ _⟩

lemma SameView.trans {st'' : SplitState} (h' : SameView dir st' st'') : SameView dir st st'' := by
  refine ⟨h.rnx.trans h'.rnx, fun hpos => ?_, fun hpos => ?_, fun hpos => ?_⟩
  · exact (h.fragp hpos).trans (h'.fragp (h.rnx ▸ hpos))
  · exact (h.remaining hpos).trans (h'.remaining (h.rnx ▸ hpos))
  have hrest := h'.stored (h.rnx ▸ hpos)
  rw [← h.fragp hpos] at hrest
  exact (h.stored hpos).trans hrest

end

lemma Spares.stored {dst : Nat} {src : List UInt8} (h : Spares st dir dst src) (hpos : 0 < st.rnx dir) :
    readBytes (memcpy st.fragment dst src) (fragmentAt dir) (st.fragp dir - fragmentAt dir) =
    readBytes st.fragment (fragmentAt dir) (st.fragp dir - fragmentAt dir) := by
  apply readBytes_congr
  intro i hi
  apply memcpy_same
  intro k hk heq
  rw [h hpos k hk (by omega) (by omega), heq]

variable {dir' : Dir}

lemma sameView_splitLeave (hne : dir' ≠ dir)
    (h : Spares st dir' (fragmentAt dir) tail) : SameView dir' (splitLeave dir st tail) st := by
  cases tail with
  | nil => exact ⟨by simp [splitLeave, hne], fun _ => rfl, fun _ => rfl, fun _ => rfl⟩
  | cons b0 buf =>
    refine ⟨by simp [splitLeave, hne], by simp [splitLeave, hne], by simp [splitLeave, hne], fun hpos => ?_⟩
    simp only [splitLeave, update_of_ne hne] at hpos ⊢
    exact h.stored hpos

variable {bytes : List UInt8}

lemma sameView_splitExtend (hne : dir' ≠ dir)
    (h : Spares st dir' (st.fragp dir) bytes) : SameView dir' (splitExtend dir st bytes) st := by
  refine ⟨rfl, by simp [splitExtend, hne], by simp [splitExtend, hne], fun hpos => ?_⟩
  simp only [splitExtend, update_of_ne hne] at hpos ⊢
  exact h.stored hpos

lemma Spares.splitExtend (hne : dir' ≠ dir) {src : List UInt8}
    {dst : Nat} (hbytes : Spares st dir' (st.fragp dir) bytes) (h : Spares st dir' dst src) :
    Spares (splitExtend dir st bytes) dir' dst src := by
  intro hpos k hk hle hlt
  simp only [Vde.splitExtend, update_of_ne hne] at hpos hlt ⊢
  rw [h hpos k hk hle hlt]
  symm
  apply memcpy_same
  intro l hl heq
  rw [hbytes hpos l hl (by omega) (by omega), heq]

lemma splitpacket_other (hdir : dir' ≠ dir) (st : SplitState) (c : Chunk) (hne : c.buf ≠ [])
    (hcut : ¬EndsInHeader dir st c) (hold : Spares st dir' (st.fragp dir) (oldBytes dir st c))
    (htail : Spares st dir' (fragmentAt dir) (chunkTail dir st c)) : SameView dir' (splitpacket dir st c).2 st := by
  rcases splitpacket_cases dir st c hne hcut with ⟨-, -, heq⟩ | ⟨-, -, hwhole, -, heq⟩ | ⟨-, -, heq⟩
  · rw [heq]
    exact sameView_splitLeave hdir htail
  · rw [hwhole] at hold
    rw [heq]
    exact sameView_splitExtend hdir hold
  rw [heq]
  exact (sameView_splitLeave hdir (hold.splitExtend hdir htail)).trans (sameView_splitExtend hdir hold)

lemma unfinished_length (fuel : Nat) (buf : List UInt8) (hfuel : buf.length ≤ fuel) :
    (unfinished fuel buf).length ≤ maxPacket + 1 := by
  match htail : unfinished fuel buf with
  | [] => simp
  | [_] => simp
  | b0 :: b1 :: tail =>
    obtain ⟨hmax, hlt⟩ := unfinished_header fuel htail hfuel
    simp only [length_cons]
    omega

lemma chunkTail_length (dir : Dir) (st : SplitState) (c : Chunk) : (chunkTail dir st c).length ≤ maxPacket + 1 :=
  unfinished_length _ _ le_rfl

lemma splitLeave_rnx (hcut : ¬EndsInHeader dir st c) :
    (splitLeave dir st' (chunkTail dir st c)).rnx dir ≤ maxPacket := by
  match htail : chunkTail dir st c with
  | [] => simp [splitLeave]
  | [_] => exact absurd (by simp [EndsInHeader, htail]) hcut
  | b0 :: b1 :: tail =>
    have hmax := (unfinished_header _ htail le_rfl).1
    simpa [splitLeave] using hmax

lemma fragmentAt_le (dir : Dir) : fragmentAt dir ≤ 2 := by
  cases dir <;> decide

lemma splitLeave_outside (dir : Dir) (st : SplitState) (htail : tail.length ≤ maxPacket + 1)
    {i : Nat} (hi : 2 * wireBufsize ≤ i) : (splitLeave dir st tail).fragment i = st.fragment i := by
  have hat := fragmentAt_le dir
  have hmax : maxPacket = 1521 := rfl
  have hbuf : wireBufsize = 2048 := rfl
  cases tail with
  | nil => rfl
  | cons b0 buf => exact memcpy_outside _ _ _ _ (by omega)

lemma splitExtend_outside (hfrag : SplitFragmented dir st) (hmax : st.rnx dir ≤ maxPacket) (hpos : 0 < st.rnx dir)
    (hlen : bytes.length ≤ st.remaining dir) {i : Nat} (hi : 2 * wireBufsize ≤ i) :
    (splitExtend dir st bytes).fragment i = st.fragment i := by
  have hat := fragmentAt_le dir
  obtain ⟨hle, hsum⟩ := hfrag hpos
  have hmax' : maxPacket = 1521 := rfl
  have hbuf : wireBufsize = 2048 := rfl
  exact memcpy_outside _ _ _ _ (by omega)

lemma splitpacket_inside (hfrag : SplitFragmented dir st) (hmax : st.rnx dir ≤ maxPacket) (c : Chunk)
    (hne : c.buf ≠ []) (hcut : ¬EndsInHeader dir st c) : (splitpacket dir st c).2.rnx dir ≤ maxPacket ∧ ∀ i,
    2 * wireBufsize ≤ i → (splitpacket dir st c).2.fragment i = st.fragment i := by
  have htail := chunkTail_length dir st c
  rcases splitpacket_cases dir st c hne hcut with ⟨-, -, heq⟩ | ⟨hpos, hlt, -, -, heq⟩ | ⟨hpos, hlen, heq⟩
  · rw [heq]
    exact ⟨splitLeave_rnx hcut, fun i hi => splitLeave_outside dir st htail hi⟩
  · rw [heq]
    exact ⟨hmax, fun i hi => splitExtend_outside hfrag hmax hpos (Nat.le_of_lt hlt) hi⟩
  rw [heq]
  refine ⟨splitLeave_rnx hcut, fun i hi => ?_⟩
  rw [splitLeave_outside dir _ htail hi, splitExtend_outside hfrag hmax hpos (Nat.le_of_eq hlen) hi]

lemma splitLoop_dir (dir : Dir) (after : UInt8) (fuel : Nat) (st : SplitState) (buf : List UInt8) :
    ∀ h ∈ handled (splitLoop dir after fuel st buf).1, h.1 = dir := by
  induction fuel generalizing st buf with
  | zero => simp [splitLoop]
  | succ fuel ih =>
    cases buf with
    | nil => simp [splitLoop]
    | cons b0 buf =>
      rw [@splitLoop_cons dir fuel st after b0 buf _ rfl]
      split
      · simp
      split
      · simp
      intro h hmem
      rw [handled_handlePacket, mem_cons] at hmem
      rcases hmem with rfl | hmem
      · rfl
      · exact ih _ _ h hmem

lemma splitpacket_dir (dir : Dir) (st : SplitState) (c : Chunk) :
    ∀ h ∈ handled (splitpacket dir st c).1, h.1 = dir := by
  unfold splitpacket
  dsimp only
  split
  · simp
  split
  · split
    · intro h hmem
      rw [handled_handlePacket, mem_cons] at hmem
      rcases hmem with rfl | hmem
      · rfl
      · exact splitLoop_dir _ _ _ _ _ h hmem
    · exact splitLoop_dir _ _ _ _ _
  · exact splitLoop_dir _ _ _ _ _

lemma splitChunks_append (dir : Dir) (st : SplitState) (cs cs' : List Chunk) :
    splitChunks dir st (cs ++ cs') =
      ((splitChunks dir st cs).1 ++ (splitChunks dir (splitChunks dir st cs).2 cs').1,
        (splitChunks dir (splitChunks dir st cs).2 cs').2) := by
  induction cs generalizing st with
  | nil => simp [splitChunks]
  | cons c cs ih => simp [splitChunks, ih]

@[simp] lemma chunksOf_append_self (dir : Dir) (es : List (Dir × Chunk)) (c : Chunk) :
    chunksOf dir (es ++ [(dir, c)]) = chunksOf dir es ++ [c] := by
  simp [chunksOf]

lemma chunksOf_append_other (h : dir ≠ dir') (es : List (Dir × Chunk)) (c : Chunk) :
    chunksOf dir' (es ++ [(dir, c)]) = chunksOf dir' es := by
  simp [chunksOf, h]

structure WireDir (mem : Mem) (s : WireRun) (dir : Dir) : Prop where
  fragmented : SplitFragmented dir s.st
  legal : s.st.rnx dir ≤ maxPacket
  alone : ∀ cs, cs.map Chunk.buf = (chunksOf dir s.chunks).map Chunk.buf →
    (handled s.calls).filter (fun h => h.1 = dir) = handled (splitChunks dir (splitStart mem) cs).1 ∧
      SameView dir s.st (splitChunks dir (splitStart mem) cs).2

structure WireInv (mem : Mem) (s : WireRun) : Prop where
  dirs : ∀ dir, WireDir mem s dir
  outside : ∀ i, 2 * wireBufsize ≤ i → s.st.fragment i = mem i

variable {mem : Mem} {s : WireRun}

lemma WireInv.ok (h : WireInv mem s) : WireOk mem s :=
  ⟨fun dir cs hcs => ((h.dirs dir).alone cs hcs).1, h.outside⟩

lemma wireStart_inv (mem : Mem) : WireInv mem (wireStart mem) := by
  refine ⟨fun dir => ⟨by simp [SplitFragmented, wireStart, splitStart, splitInit],
    by simp [wireStart, splitStart, splitInit], ?_⟩, fun _ _ => rfl⟩
  intro cs hcs
  have hnil : cs = [] := by simpa [wireStart, chunksOf] using hcs
  subst hnil
  exact ⟨rfl, rfl, fun _ => rfl, fun _ => rfl, fun _ => rfl⟩

lemma wireDir_own (h : WireDir mem s dir) (c : Chunk) (hne : c.buf ≠ [])
    (hcut : ¬EndsInHeader dir s.st c) : WireDir mem (wireStep s (dir, c)) dir := by
  refine ⟨(splitpacket_bytes dir s.st c h.fragmented).2.1,
    (splitpacket_inside h.fragmented h.legal c hne hcut).1, ?_⟩
  intro cs hcs
  -- the last chunk of the direction alone has the bytes of the chunk just read
  obtain ⟨cs₁, c', rfl, hcs₁, hbuf⟩ : ∃ cs₁ c', cs = cs₁ ++ [c'] ∧
      cs₁.map Chunk.buf = (chunksOf dir s.chunks).map Chunk.buf ∧ c.buf = c'.buf := by
    simp only [wireStep, chunksOf_append_self, map_append, map_cons, map_nil] at hcs
    obtain ⟨cs₁, cs₂, rfl, hfst, hsnd⟩ := map_eq_append_iff.mp hcs
    obtain ⟨c', rfl, hc'⟩ := map_eq_singleton_iff.mp hsnd
    exact ⟨cs₁, c', rfl, hfst, hc'.symm⟩
  obtain ⟨hcalls, hview⟩ := h.alone cs₁ hcs₁
  obtain ⟨hnew, hview'⟩ := hview.splitpacket h.fragmented hbuf hne hcut
  rw [splitChunks_append]
  simp only [splitChunks, append_nil]
  refine ⟨?_, hview'⟩
  simp only [wireStep, handled_append, filter_append, hcalls]
  rw [filter_eq_self.mpr (fun x hx => by simpa using splitpacket_dir dir s.st c x hx), hnew]

lemma wireDir_other (hdir : dir' ≠ dir) (h : WireDir mem s dir') (c : Chunk) (hne : c.buf ≠ [])
    (hcut : ¬EndsInHeader dir s.st c) (hold : Spares s.st dir' (s.st.fragp dir) (oldBytes dir s.st c))
    (htail : Spares s.st dir' (fragmentAt dir) (chunkTail dir s.st c)) :
    WireDir mem (wireStep s (dir, c)) dir' := by
  have hview := splitpacket_other hdir s.st c hne hcut hold htail
  refine ⟨?_, ?_, ?_⟩
  · intro hpos
    have hpos' : 0 < s.st.rnx dir' := hview.rnx ▸ hpos
    have hfrag := h.fragmented hpos'
    simp only [wireStep] at hpos ⊢
    rw [hview.fragp hpos, hview.remaining hpos, hview.rnx]
    exact hfrag
  · rw [wireStep, hview.rnx]
    exact h.legal
  intro cs hcs
  simp only [wireStep, chunksOf_append_other hdir.symm] at hcs
  obtain ⟨hcalls, halone⟩ := h.alone cs hcs
  refine ⟨?_, hview.trans halone⟩
  simp only [wireStep, handled_append, filter_append, hcalls]
  rw [filter_eq_nil_iff.mpr, append_nil]
  intro x hx
  simpa [splitpacket_dir dir s.st c x hx] using hdir.symm

lemma wireStep_inv (h : WireInv mem s) (e : Dir × Chunk)
    (hen : wireMachine.enabled s e) (hspare : SparesOther s e) : WireInv mem (wireStep s e) := by
  obtain ⟨dir, c⟩ := e
  obtain ⟨hne, -, hcut⟩ := hen
  obtain ⟨hold, htail⟩ := hspare
  have hown := h.dirs dir
  refine ⟨fun dir' => ?_, fun i hi => ?_⟩
  · rcases Dir.eq_or_eq_other dir dir' with rfl | rfl
    · exact wireDir_own hown c hne hcut
    · exact wireDir_other (Dir.ne_other dir).symm (h.dirs _) c hne hcut hold htail
  rw [wireStep, (splitpacket_inside hown.fragmented hown.legal c hne hcut).2 i hi]
  exact h.outside i hi

/-- In every run in which no chunk is copied over the other direction's unfinished packet, both
directions handle the packets they handle alone, and no write leaves the block of `fragment`. -/
theorem splitpacket_directions_apart (mem : Mem) (es : List (Dir × Chunk))
    (hes : wireMachine.Along (fun s e => wireMachine.enabled s e ∧ SparesOther s e) (wireStart mem) es) :
    wireMachine.Always (WireOk mem) (wireStart mem) es := by
  refine hes.always (WireInv mem) (fun s h => h.ok) ?_ (wireStart_inv mem)
  rintro s e h ⟨hen, hspare⟩
  exact wireStep_inv h e hen hspare

/-- Only the header of a packet has come from the left when a packet from the right is put
together behind it. -/
theorem splitpacket_directions_apart_header :
    wireMachine.Always (WireOk (fun _ => 0)) (wireStart (fun _ => 0))
      [(.LR, ⟨[0, 2], 0⟩), (.RL, ⟨[0, 3, 1], 0⟩), (.RL, ⟨[2, 3], 0⟩), (.LR, ⟨[5, 6], 0⟩)] := by
  refine splitpacket_directions_apart (fun _ => 0) _ ⟨⟨⟨?_, ?_, ?_⟩, ?_, ?_⟩, ⟨⟨?_, ?_, ?_⟩, ?_, ?_⟩,
    ⟨⟨?_, ?_, ?_⟩, ?_, ?_⟩, ⟨⟨?_, ?_, ?_⟩, ?_, ?_⟩, trivial⟩
  all_goals decide

/-- A packet from the left has three of its five bytes when one from the right begins: its third
byte is overwritten and it is handled with another content. -/
theorem splitpacket_directions_clash :
    wireMachine.Along wireMachine.enabled (wireStart (fun _ => 0))
        [(.LR, ⟨[0, 3, 1], 0⟩), (.RL, ⟨[0, 2, 9], 0⟩), (.LR, ⟨[7, 8], 0⟩)] ∧
      ¬wireMachine.Always (WireOk (fun _ => 0)) (wireStart (fun _ => 0))
        [(.LR, ⟨[0, 3, 1], 0⟩), (.RL, ⟨[0, 2, 9], 0⟩), (.LR, ⟨[7, 8], 0⟩)] := by
  constructor
  · refine ⟨⟨?_, ?_, ?_⟩, ⟨?_, ?_, ?_⟩, ⟨?_, ?_, ?_⟩, trivial⟩
    all_goals decide
  intro h
  have hcalls := h.last.1 .LR [⟨[0, 3, 1], 0⟩, ⟨[7, 8], 0⟩] rfl
  revert hcalls
  decide

end Vde
