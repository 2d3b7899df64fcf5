import Vde.Proofs.DnsNames
import Vde.VdeOpen

/-!
# The names and the description of vde_open

The name of a UDP connection is cut at its first `->` and behind that at the last colon, which is right. The local side is
not cut at its colon at all. The second part of the description is written behind the first one as if nothing of it had
been left out.
-/

namespace Vde.Plug

open List

open Cmd (bytes)

variable {s t : List UInt8} {c : UInt8} {k : Nat}

lemma strrchr_eq_none : strrchr c s = none ↔ c ∉ s := by
  induction s with
  | nil => exact ⟨fun _ => not_mem_nil, fun _ => rfl⟩
  | cons b s ih =>
    rw [strrchr, mem_cons]
    cases hrest : strrchr c s with
    | some i =>
      have hmem : c ∈ s := by
        by_contra hno
        rw [ih.mpr hno] at hrest
        cases hrest
      exact ⟨fun h => (nomatch h), fun h => absurd (.inr hmem) h⟩
    | none =>
      have hmem : c ∉ s := ih.mp hrest
      dsimp only
      by_cases hb : b = c
      · rw [if_pos hb]
        exact ⟨fun h => (nomatch h), fun h => absurd (.inl hb.symm) h⟩
      rw [if_neg hb]
      exact ⟨fun _ h => h.elim (fun hc => hb hc.symm) hmem, fun _ => rfl⟩

lemma strrchr_append (s : List UInt8) (ht : c ∉ t) : strrchr c (s ++ c :: t) = some s.length := by
  induction s with
  | nil =>
    rw [nil_append, strrchr, strrchr_eq_none.mpr ht]
    exact if_pos rfl
  | cons b s ih =>
    rw [cons_append, strrchr, ih]
    rfl

def NoArrow (s : List UInt8) : Prop := ¬arrow <:+: s

instance : Decidable (NoArrow s) := inferInstanceAs (Decidable (¬_))

def localSide : Option (List UInt8) → List UInt8 → List UInt8
  | none, port => port
  | some a, port => a ++ 58 :: port

def udpName (host : Option (List UInt8)) (port remote remotePort : List UInt8) : List UInt8 :=
  localSide host port ++ arrow ++ (remote ++ 58 :: remotePort)

def CallsRight (host : Option (List UInt8)) (port remote remotePort : List UInt8) : Prop :=
  ∀ bound, addrCalls (udpName host port remote remotePort) bound =
    ⟨host, port⟩ :: if bound then [⟨some remote, remotePort⟩] else []

lemma arrow_inside {j : Nat} (hj : j < s.length) (h : arrow <+: (s ++ arrow ++ t).drop j) :
    j + 2 ≤ s.length ∧ arrow <+: s.drop j := by
  rw [append_assoc, drop_append_of_le_length (by omega)] at h
  have hlen : (s.drop j).length = s.length - j := length_drop
  cases hd : s.drop j with
  | nil =>
    rw [hd, length_nil] at hlen
    omega
  | cons b u =>
    rw [hd, cons_append] at h
    rw [hd, length_cons] at hlen
    obtain ⟨hb, h⟩ := cons_prefix_cons.mp h
    cases u with
    | nil =>
      have hsecond := (cons_prefix_cons.mp h).1
      exact absurd hsecond (by decide)
    | cons b' rest =>
      rw [length_cons] at hlen
      obtain ⟨hb', -⟩ := cons_prefix_cons.mp h
      refine ⟨by omega, ?_⟩
      rw [← hb, ← hb']
      exact prefix_append [45, 62] rest

lemma strstr_arrow (s t : List UInt8) : ∃ k, strstr (s ++ arrow ++ t) arrow = some k ∧
    (NoArrow s ∧ k = s.length ∨ k + 2 ≤ s.length ∧ arrow <+: s.drop k) := by
  have hthere : arrow <+: (s ++ arrow ++ t).drop s.length := by
    rw [append_assoc, drop_left]
    exact prefix_append arrow t
  obtain ⟨k, hk⟩ : ∃ k, strstr (s ++ arrow ++ t) arrow = some k := by
    rw [← Option.isSome_iff_exists, strstr, find?_isSome]
    refine ⟨s.length, mem_range.mpr ?_, isPrefixOf_iff_prefix.mpr hthere⟩
    rw [append_assoc, length_append]
    omega
  obtain ⟨hat, -, hfirst⟩ := strstr_eq_some.mp hk
  refine ⟨k, hk, ?_⟩
  by_cases hlt : k < s.length
  · exact .inr (arrow_inside hlt hat)
  have heq : k = s.length := by
    by_contra hne
    exact hfirst s.length (by omega) hthere
  refine .inl ⟨?_, heq⟩
  rintro ⟨u, v, huv⟩
  refine hfirst u.length ?_ ?_
  · rw [heq, ← huv, length_append, length_append]
    exact Nat.lt_add_right _ (Nat.lt_add_of_pos_right (by decide))
  rw [← huv, append_assoc, append_assoc, append_assoc, drop_left]
  exact prefix_append arrow _

lemma addrCalls_eq {given : List UInt8} {k j : Nat} (hk : strstr given arrow = some k)
    (hj : strrchr 58 (given.drop (k + 2)) = some j) (bound : Bool) :
    addrCalls given bound = localCall (given.take k) ::
      if bound then [⟨some ((given.drop (k + 2)).take j), (given.drop (k + 2)).drop (j + 1)⟩] else [] := by
  have hne : given ≠ [] := by
    rintro rfl
    rw [drop_nil] at hj
    cases hj
  have hcolon : (strrchr 58 (given.drop k)).isSome := by
    have hmem : (58 : UInt8) ∈ given.drop k := by
      have hback : (58 : UInt8) ∈ given.drop (k + 2) := by
        by_contra hno
        rw [strrchr_eq_none.mpr hno] at hj
        cases hj
      rw [← drop_drop] at hback
      exact mem_of_mem_drop hback
    rw [Option.isSome_iff_ne_none]
    exact fun h => strrchr_eq_none.mp h hmem
  have hudp : (sockName given).udpSocket = true := by
    rw [sockName, if_neg hne, hk, if_pos (by exact hcolon)]
  rw [addrCalls, if_pos hudp, udpCalls, hk]
  dsimp only
  rw [hj]

lemma localCall_cases (src : List UInt8) :
    58 ∉ src ∧ localCall src = ⟨none, src⟩ ∨ ∃ i, localCall src = ⟨some src, src.drop i⟩ := by
  rw [localCall]
  cases hi : strrchr 58 src with
  | none => exact .inl ⟨strrchr_eq_none.mp hi, rfl⟩
  | some i => exact .inr ⟨i, rfl⟩

variable {host : Option (List UInt8)} {port remote remotePort : List UInt8}

lemma localCall_wrong (rest : List UInt8)
    (hk : NoArrow (localSide host port) ∧ k = (localSide host port).length ∨
      k + 2 ≤ (localSide host port).length ∧ arrow <+: (localSide host port).drop k)
    (h : localCall ((localSide host port ++ rest).take k) = ⟨host, port⟩) : host = none ∧ NoArrow port := by
  have hle : k ≤ (localSide host port).length := by omega
  rw [take_append_of_le_length hle] at h
  have hlen : ((localSide host port).take k).length = k := length_take_of_le hle
  cases host with
  | none =>
    refine ⟨rfl, ?_⟩
    obtain ⟨-, hcall⟩ | ⟨i, hcall⟩ := localCall_cases ((localSide none port).take k)
    · rw [hcall, AddrCall.mk.injEq] at h
      rw [h.2] at hlen
      obtain ⟨hno, -⟩ | ⟨hlt, -⟩ := hk
      · exact hno
      rw [localSide] at hlt
      omega
    rw [hcall, AddrCall.mk.injEq] at h
    cases h.1
  | some a =>
    obtain ⟨-, hcall⟩ | ⟨i, hcall⟩ := localCall_cases ((localSide (some a) port).take k)
    · rw [hcall, AddrCall.mk.injEq] at h
      cases h.1
    rw [hcall, AddrCall.mk.injEq, Option.some.injEq] at h
    rw [h.1] at hlen
    obtain ⟨-, hend⟩ | ⟨-, hin⟩ := hk
    · rw [localSide, length_append, length_cons] at hend
      omega
    -- The colon is where the arrow would begin.
    rw [← hlen, localSide, drop_left] at hin
    exact absurd (cons_prefix_cons.mp hin).1 (by decide)

lemma calls_right_iff (hport : 58 ∉ port) (hremote : 58 ∉ remotePort) :
    CallsRight host port remote remotePort ↔ host = none ∧ NoArrow port := by
  obtain ⟨k, hk, hcases⟩ := strstr_arrow (localSide host port) (remote ++ 58 :: remotePort)
  change strstr (udpName host port remote remotePort) arrow = some k at hk
  constructor
  · intro hright
    have hj : ∃ j, strrchr 58 ((udpName host port remote remotePort).drop (k + 2)) = some j := by
      have hmem : (58 : UInt8) ∈ (udpName host port remote remotePort).drop (k + 2) := by
        rw [udpName, drop_append_of_le_length (by rw [length_append]; simp [arrow]; omega)]
        simp
      cases hj : strrchr 58 ((udpName host port remote remotePort).drop (k + 2)) with
      | none => exact absurd hmem (strrchr_eq_none.mp hj)
      | some j => exact ⟨j, rfl⟩
    obtain ⟨j, hj⟩ := hj
    have hfirst := hright false
    rw [addrCalls_eq hk hj] at hfirst
    refine localCall_wrong (arrow ++ (remote ++ 58 :: remotePort)) hcases ?_
    rw [← append_assoc]
    exact (List.cons.inj hfirst).1
  rintro ⟨rfl, hno⟩ bound
  have hend : k = port.length := by
    obtain ⟨-, hend⟩ | ⟨-, hin⟩ := hcases
    · exact hend
    · exact absurd (hin.isInfix.trans (drop_suffix k port).isInfix) hno
  have hdrop : (udpName none port remote remotePort).drop (k + 2) = remote ++ 58 :: remotePort := by
    rw [hend]
    exact drop_left' (by simp [arrow, localSide])
  have hj : strrchr 58 ((udpName none port remote remotePort).drop (k + 2)) = some remote.length := by
    rw [hdrop]
    exact strrchr_append remote hremote
  have hsrc : (udpName none port remote remotePort).take k = port := by
    rw [udpName, append_assoc, hend]
    exact take_left
  have hlocal : localCall port = ⟨none, port⟩ := by rw [localCall, strrchr_eq_none.mpr hport]
  have hservice : (remote ++ 58 :: remotePort).drop (remote.length + 1) = remotePort := by
    rw [← drop_drop, drop_left]
    rfl
  rw [addrCalls_eq hk hj, hsrc, hdrop, hlocal, take_left, hservice]

/-- The description is terminated inside of its bytes, and nothing is written outside of them. -/
def DescriptionRight (descr : List UInt8) (callerpwd : Option (List UInt8)) (pid : Nat)
    (sshClient : Option (List UInt8)) : Prop :=
  ∃ b, description descr callerpwd pid sshClient = some b ∧ b.size = MAXDESCR ∧ ∃ i < MAXDESCR, b.elems i = 0

lemma snprintf_inside {b : Block UInt8} (p n : Nat) (hn : n ≠ 0) (hend : p + n ≤ b.size) (text : List UInt8) :
    ∃ b', snprintf b p n text = some b' ∧ b'.size = b.size ∧ ∃ i < b.size, b'.elems i = 0 := by
  have hlen : (text.take (n - 1) ++ [0]).length = min (n - 1) text.length + 1 := by
    rw [length_append, length_take]
    rfl
  have hfit : p + (text.take (n - 1) ++ [0]).length ≤ b.size := by omega
  obtain ⟨b', hb, hsize, helems, -⟩ := Block.exists_storeList hfit
  refine ⟨b', ?_, hsize, p + min (n - 1) text.length, by omega, ?_⟩
  · rw [snprintf, if_neg hn, if_pos (Int.natCast_nonneg p), Int.toNat_natCast]
    exact hb
  rw [helems _ (by omega)]
  exact getElem_concat_length (by rw [length_take]) _

lemma snprintf_outside {b : Block UInt8} {place : Int} {n : Nat} (hn : n ≠ 0)
    (hplace : place < 0 ∨ b.size ≤ place) (text : List UInt8) : snprintf b place n text = none := by
  rw [snprintf, if_neg hn]
  by_cases hneg : 0 ≤ place
  · rw [if_pos hneg]
    cases hb : b.storeList place.toNat (text.take (n - 1) ++ [0]) with
    | none => rfl
    | some b' =>
      have hfit := (Block.size_of_storeList hb).2 (by simp)
      rw [length_append, length_singleton] at hfit
      omega
  · rw [if_neg hneg]

variable {descr : List UInt8} {callerpwd : Option (List UInt8)} {pid : Nat} {sshClient : Option (List UInt8)}

lemma description_right_iff : DescriptionRight descr callerpwd pid sshClient ↔
    sshClient = none ∨ (descrText descr callerpwd pid).length ≤ MAXDESCR := by
  obtain ⟨b, hb, hsize, hzero⟩ := snprintf_inside (b := ⟨MAXDESCR, fun _ => 0⟩) 0 MAXDESCR (by decide) (by decide)
    (descrText descr callerpwd pid)
  change b.size = MAXDESCR at hsize
  change ∃ i < MAXDESCR, b.elems i = 0 at hzero
  rw [Int.natCast_zero] at hb
  rw [DescriptionRight, description, hb, Option.bind_some]
  cases sshClient with
  | none => exact ⟨fun _ => .inl rfl, fun _ => ⟨b, rfl, hsize, hzero⟩⟩
  | some ssh =>
    dsimp only
    by_cases hle : (descrText descr callerpwd pid).length ≤ MAXDESCR
    · refine ⟨fun _ => .inr hle, fun _ => ?_⟩
      have hmax : MAXDESCR = 128 := rfl
      rw [snprintfLen, if_pos (by omega), toSize_of_nonneg (by omega) (by omega)]
      by_cases hfull : (descrText descr callerpwd pid).length = MAXDESCR
      · -- No byte is left for the second text, and none is written.
        rw [hfull, snprintf, if_pos (by omega)]
        exact ⟨b, rfl, hsize, hzero⟩
      obtain ⟨b', hb', hsize', hzero'⟩ := snprintf_inside (b := b) (descrText descr callerpwd pid).length
        ((MAXDESCR : Int) - (descrText descr callerpwd pid).length).toNat (by omega) (by omega) (sshText ssh)
      rw [hsize] at hsize' hzero'
      exact ⟨b', hb', hsize', hzero'⟩
    constructor
    · rintro ⟨b', hb', -⟩
      have hmax : MAXDESCR = 128 := rfl
      have hnone : snprintf b (snprintfLen (descrText descr callerpwd pid))
          (toSize (MAXDESCR - snprintfLen (descrText descr callerpwd pid))) (sshText ssh) = none := by
        rw [snprintfLen, toSize]
        by_cases hint : (descrText descr callerpwd pid).length < 2 ^ 31
        · rw [if_pos hint]
          exact snprintf_outside (by omega) (.inr (by omega)) _
        rw [if_neg hint]
        exact snprintf_outside (by omega) (.inl (by omega)) _
      rw [hnone] at hb'
      cases hb'
    intro h
    exact absurd h (by simpa using hle)

/-- The two getaddrinfo calls and the description are as they should be exactly when the name has no local host and its
local port has no arrow in it, and when `SSH_CLIENT` is not set or the first text is not too long. -/
theorem open_right_iff (hport : 58 ∉ port) (hremote : 58 ∉ remotePort) :
    (CallsRight host port remote remotePort ↔ host = none ∧ NoArrow port) ∧
      (DescriptionRight descr callerpwd pid sshClient ↔
        sshClient = none ∨ (descrText descr callerpwd pid).length ≤ MAXDESCR) :=
  ⟨calls_right_iff hport hremote, description_right_iff⟩

theorem open_right_iff_port : CallsRight none [49] [98] [50] ∧ DescriptionRight [] none 1 (some [104]) :=
  ⟨(@open_right_iff none [49] [98] [50] [] none 1 none (by decide) (by decide)).1.mpr ⟨rfl, by decide⟩,
    (@open_right_iff none [49] [98] [50] [] none 1 (some [104]) (by decide) (by decide)).2.mpr (.inr (by decide))⟩

theorem local_port_kept : ¬CallsRight (some [104]) [49] [98] [50] := fun h => absurd (h false) (by decide)

end Vde.Plug
