import Vde.Proofs.StreamFraming

/-!
# The fragment buffer

Whatever arrives, the unfinished packet fits into `fragment`: the header that announced it was checked, and
what is still missing is counted down with every copy.
-/

namespace Vde

open List

structure FragmentOk (st : VdeStream) : Prop where
  sum : 0 < st.rnx → st.fragp + st.remaining = st.rnx
  fits : st.rnx ≤ maxPacket
  missing : 0 < st.rnx → 0 < st.remaining

def CallsOk (calls : List StreamCall) : Prop := ∀ buf, .frecv buf ∈ calls → 1 ≤ buf.length ∧ buf.length ≤ maxPacket

section

variable {st : VdeStream} {calls calls' : List StreamCall} {buf : List UInt8}

lemma callsOk_nil : CallsOk [] := by
  intro buf hbuf
  cases hbuf

lemma CallsOk.append (h : CallsOk calls) (h' : CallsOk calls') : CallsOk (calls ++ calls') := by
  intro buf hbuf
  cases mem_append.mp hbuf with
  | inl hmem => exact h buf hmem
  | inr hmem => exact h' buf hmem

lemma callsOk_frecv (h1 : 1 ≤ buf.length) (h2 : buf.length ≤ maxPacket) (h : CallsOk calls) :
    CallsOk (.frecv buf :: calls) := by
  intro b hb
  cases mem_cons.mp hb with
  | inl heq =>
    cases heq
    exact ⟨h1, h2⟩
  | inr hmem => exact h b hmem

lemma FragmentOk.idle (h : st.rnx = 0) : FragmentOk st := by
  refine ⟨fun hpos => ?_, ?_, fun hpos => ?_⟩ <;> omega

lemma copy_ok {p : Nat} (h : p + buf.length ≤ maxPacket) :
    st.copy p buf = .ok { st with fragment := memcpy st.fragment p buf, fragp := p + buf.length } :=
  if_pos h

lemma loop_stops (h : buf.length ≤ 1) : Ends (fun n => runLoop .hang recvTurn n (calls, st, buf)) (calls, st) := by
  apply runLoop_inr
  apply ends_of_forall
  intro n
  match buf with
  | [] => rfl
  | [_] => rfl

lemma loop_ends (fuel : Nat) (hst : st.rnx = 0) (hfuel : buf.length ≤ fuel) :
    Ends (fun n => runLoop .hang recvTurn n (calls, st, buf))
        (calls ++ (recvLoop fuel st buf).1, (recvLoop fuel st buf).2) ∧
      FragmentOk (recvLoop fuel st buf).2 ∧ CallsOk (recvLoop fuel st buf).1 := by
  -- every turn takes the two bytes of a header at least
  induction fuel generalizing st buf calls with
  | zero =>
    have hnil : buf = [] := length_eq_zero_iff.mp (by omega)
    subst hnil
    have hcalls : calls ++ (recvLoop 0 st []).1 = calls := append_nil calls
    rw [hcalls]
    exact ⟨loop_stops (by simp), .idle hst, callsOk_nil⟩
  | succ fuel ih =>
    match buf with
    | [] =>
      have hcalls : calls ++ (recvLoop (fuel + 1) st []).1 = calls := append_nil calls
      rw [hcalls]
      exact ⟨loop_stops (by simp), .idle hst, callsOk_nil⟩
    | [b] =>
      have hcalls : calls ++ (recvLoop (fuel + 1) st [b]).1 = calls := append_nil calls
      rw [hcalls]
      exact ⟨loop_stops (by simp), .idle hst, callsOk_nil⟩
    | b0 :: b1 :: buf =>
      have hlen : buf.length + 2 ≤ fuel + 1 := hfuel
      rw [recvLoop]
      by_cases hzero : (b0.toNat <<< 8) + b1.toNat = 0
      · rw [if_pos hzero]
        obtain ⟨hends, hok⟩ := @ih { st with rnx := 0 } calls buf rfl (by omega)
        refine ⟨?_, hok⟩
        apply (runLoop_inl (ends_of_forall (fun n => ?_))).mpr hends
        rw [recvTurn, if_pos hzero]
      rw [if_neg hzero]
      by_cases hlong : maxPacket < (b0.toNat <<< 8) + b1.toNat
      · rw [if_pos hlong]
        refine ⟨runLoop_inr (ends_of_forall (fun n => ?_)), .idle rfl, ?_⟩
        · rw [recvTurn, if_neg hzero, if_pos hlong]
        intro b hb
        cases mem_singleton.mp hb
      rw [if_neg hlong]
      by_cases hpart : buf.length < (b0.toNat <<< 8) + b1.toNat
      · rw [if_pos hpart]
        have hcopy : st.copy 0 buf = _ := copy_ok (by omega)
        rw [Nat.zero_add] at hcopy
        refine ⟨?_, ?_, callsOk_nil⟩
        · rw [append_nil]
          have hstop (st' : VdeStream) : Ends (fun n => runLoop .hang recvTurn n (calls, st', [])) (calls, st') :=
            loop_stops (Nat.zero_le 1)
          apply (runLoop_inl (ends_of_forall (fun n => ?_))).mpr (hstop _)
          rw [recvTurn, if_neg hzero, if_neg hlong, if_pos hpart, hcopy]
          rfl
        · exact ⟨fun _ => by dsimp only; omega, by dsimp only; omega, fun _ => by dsimp only; omega⟩
      rw [if_neg hpart]
      have hrest : (buf.drop ((b0.toNat <<< 8) + b1.toNat)).length ≤ fuel := by
        rw [length_drop]
        omega
      have htake : (buf.take ((b0.toNat <<< 8) + b1.toNat)).length = (b0.toNat <<< 8) + b1.toNat := by
        rw [length_take]
        omega
      obtain ⟨hends, hfrag, hcalls⟩ := @ih { st with rnx := 0 }
        (calls ++ [.frecv (buf.take ((b0.toNat <<< 8) + b1.toNat))]) _ rfl hrest
      refine ⟨?_, hfrag, callsOk_frecv (by omega) (by omega) hcalls⟩
      rw [append_assoc] at hends
      apply (runLoop_inl (ends_of_forall (fun n => ?_))).mpr hends
      rw [recvTurn, if_neg hzero, if_neg hlong, if_neg hpart]

lemma vdestreamRecv_bounds (hst : FragmentOk st) (buf : List UInt8) :
    Ends (fun n => vdestreamRecvIn n st buf) (vdestreamRecv st buf) ∧ FragmentOk (vdestreamRecv st buf).2 ∧
    CallsOk (vdestreamRecv st buf).1 := by
  unfold vdestreamRecvIn vdestreamRecv
  by_cases hempty : buf.length = 0
  · simp only [if_pos hempty]
    exact ⟨ends_of_forall (fun _ => rfl), hst, callsOk_nil⟩
  simp only [if_neg hempty]
  by_cases hpos : 0 < st.rnx
  · have hsum := hst.sum hpos
    have hfits := hst.fits
    have htake : (buf.take (min st.remaining buf.length)).length = min st.remaining buf.length := by
      rw [length_take]
      omega
    have hcopy : st.copy st.fragp (buf.take (min st.remaining buf.length)) = _ := copy_ok (by omega)
    rw [htake] at hcopy
    simp only [if_pos hpos, hcopy, ok_bind]
    by_cases hdone : st.remaining - min st.remaining buf.length = 0
    · simp only [if_pos hdone]
      obtain ⟨hends, hfrag, hcalls⟩ := @loop_ends
        { st with fragment := memcpy st.fragment st.fragp (buf.take (min st.remaining buf.length))
                  remaining := st.remaining - min st.remaining buf.length
                  fragp := st.fragp + min st.remaining buf.length, rnx := 0 }
        [.frecv (readBytes (memcpy st.fragment st.fragp (buf.take (min st.remaining buf.length))) 0 st.rnx)]
        (buf.drop (min st.remaining buf.length)) _ rfl le_rfl
      refine ⟨hends, hfrag, callsOk_frecv ?_ ?_ hcalls⟩
      · rw [readBytes_length]
        exact hpos
      rw [readBytes_length]
      exact hfits
    simp only [if_neg hdone]
    have hall : min st.remaining buf.length = buf.length := by omega
    have hrest : (buf.drop (min st.remaining buf.length)).length ≤ 1 := by
      rw [length_drop]
      omega
    rw [recvLoop_short _ _ _ hrest]
    refine ⟨loop_stops hrest, ⟨fun _ => ?_, hfits, fun _ => ?_⟩, callsOk_nil⟩ <;> dsimp only <;> omega
  · simp only [if_neg hpos]
    exact loop_ends _ (by omega) le_rfl

lemma recvChunks_bounds (hst : FragmentOk st) (cs : List (List UInt8)) :
    FragmentOk (recvChunks st cs).2 ∧ CallsOk (recvChunks st cs).1 := by
  induction cs generalizing st with
  | nil => exact ⟨hst, callsOk_nil⟩
  | cons c cs ih =>
    obtain ⟨_, hfrag, hcalls⟩ := vdestreamRecv_bounds hst c
    obtain ⟨hfrag', hcalls'⟩ := ih hfrag
    exact ⟨hfrag', hcalls.append hcalls'⟩

/-- After any chunks the unfinished packet fits into the buffer, every packet handed on has a length from 1
to `MAXPACKET`, and a call for any further chunk returns without a copy that leaves the buffer. -/
theorem vdestream_recv_bounds (cs : List (List UInt8)) :
    FragmentOk (recvChunks vdestreamOpen cs).2 ∧ CallsOk (recvChunks vdestreamOpen cs).1 ∧
      ∀ buf, Ends (fun n => vdestreamRecvIn n (recvChunks vdestreamOpen cs).2 buf)
        (vdestreamRecv (recvChunks vdestreamOpen cs).2 buf) := by
  have hopen : FragmentOk vdestreamOpen := .idle rfl
  obtain ⟨hfrag, hcalls⟩ := recvChunks_bounds hopen cs
  exact ⟨hfrag, hcalls, fun buf => (vdestreamRecv_bounds hfrag buf).1⟩

end

end Vde
