import Vde.Dhcp

/-!
# The options of a DHCP message

`is_options_valid` counts the bytes of an option without its length byte, so it may look for an option
behind the end of the buffer. `dhcp_get_next_option` knows no end.
-/

namespace Vde

open List

def optionAt (mem : Mem) (p : Nat) : UInt8 × List UInt8 :=
  if mem p = DHCPOPT_END ∨ mem p = DHCPOPT_PAD then (mem p, [])
  else (mem p, readBytes mem (p + 2) (mem (p + 1)).toNat)

def OptionCall.Yields (call : OptionCall) (mem : Mem) (p : Nat) : Prop :=
  call.type = (optionAt mem p).1 ∧
    (call.type ≠ DHCPOPT_END → call.type ≠ DHCPOPT_PAD → call.data = (optionAt mem p).2.take 20 ∧
      call.len = min 20 (optionAt mem p).2.length)

/-- `is_options_valid` reads the buffer only, and if it finds the options valid, calling
`dhcp_get_next_option` until `DHCPOPT_END` ends, reads the buffer only and yields the same options. -/
structure OptionsRight (mem : Mem) (opt : Nat) (len : Int) : Prop where
  reads : ∀ a ∈ (optionsWalk mem opt len).reads, opt ≤ a ∧ (a : Int) < opt + len
  iterates : isOptionsValid mem opt len = true → ∃ n calls, optionCalls mem n opt = some calls ∧
    (∀ call ∈ calls, ∀ a ∈ call.reads, opt ≤ a ∧ (a : Int) < opt + len) ∧
    Forall₂ (fun call p => call.Yields mem p) calls (optionsWalk mem opt len).walked

/-- The options read inside of the buffer, which ends at `stop`, after `k` options with a length byte: they
end with `DHCPOPT_END`, or an option with its length byte inside leaves the buffer by as many bytes as
options with a length byte were read, itself included. -/
def OptionsOk (mem : Mem) (stop : Nat) : Nat → Nat → Nat → Prop
  | 0, _, _ => True
  | turns + 1, p, k =>
    if stop ≤ p then k ≤ p - stop
    else if mem p = DHCPOPT_END then True
    else if mem p = DHCPOPT_PAD then OptionsOk mem stop turns (p + 1) k
    else p + 1 < stop ∧ OptionsOk mem stop turns (p + 2 + (mem (p + 1)).toNat) (k + 1)

section

variable {mem : Mem} {stop turns p k : Nat} {len : Int}

lemma optionsWalkLoop_result (mem : Mem) (turns p : Nat) (len : Int) :
    (optionsWalkLoop mem turns p len).result = optionsValidLoop mem turns p len := by
  induction turns generalizing p len with
  | zero => rfl
  | succ turns ih =>
    rw [optionsWalkLoop, optionsValidLoop]
    split
    · rfl
    split
    · rfl
    split
    · exact ih _ _
    · exact ih _ _

lemma optionsWalk_result (mem : Mem) (p : Nat) (len : Int) :
    (optionsWalk mem p len).result = isOptionsValid mem p len :=
  optionsWalkLoop_result mem len.toNat p len

lemma optionsWalkLoop_reads_iff (hlen : len = (stop : Int) - p + k) (hturns : len.toNat ≤ turns) {inside : Nat}
    (hinside : stop - p < inside) :
    (∀ a ∈ (optionsWalkLoop mem turns p len).reads, a < stop) ↔ OptionsOk mem stop inside p k := by
  induction turns generalizing p k len inside with
  | zero =>
    cases inside with
    | zero => exact absurd hinside (Nat.not_lt_zero _)
    | succ inside =>
      rw [OptionsOk, if_pos (by omega)]
      refine iff_of_true ?_ (by omega)
      intro a ha
      exact absurd ha not_mem_nil
  | succ turns ih =>
    cases inside with
    | zero => exact absurd hinside (Nat.not_lt_zero _)
    | succ inside =>
      rw [optionsWalkLoop, OptionsOk]
      by_cases hdone : len ≤ 0
      · rw [if_pos hdone, if_pos (by omega)]
        refine iff_of_true ?_ (by omega)
        intro a ha
        exact absurd ha not_mem_nil
      rw [if_neg hdone]
      by_cases hout : stop ≤ p
      · -- the walk goes on behind the buffer
        rw [if_pos hout]
        refine iff_of_false ?_ (by omega)
        intro h
        have hread : p ∈ (if mem p = DHCPOPT_END then ⟨true, [p], [p]⟩
            else if mem p = DHCPOPT_PAD then (optionsWalkLoop mem turns (p + 1) (len - 1)).after [p] p
            else (optionsWalkLoop mem turns (p + 1 + ((mem (p + 1)).toNat + 1))
              (len - 1 - (mem (p + 1)).toNat)).after [p, p + 1] p : OptionWalk).reads := by
          split_ifs
          · exact mem_singleton_self p
          · exact mem_cons_self
          · exact mem_cons_self
        exact absurd (h p hread) (by omega)
      rw [if_neg hout]
      by_cases hend : mem p = DHCPOPT_END
      · rw [if_pos hend, if_pos hend]
        refine iff_of_true ?_ trivial
        intro a ha
        rw [mem_singleton.mp ha]
        omega
      rw [if_neg hend, if_neg hend]
      by_cases hpad : mem p = DHCPOPT_PAD
      · rw [if_pos hpad, if_pos hpad, ← @ih (p + 1) k (len - 1) (by omega) (by omega) inside (by omega)]
        constructor
        · intro h a ha
          exact h a (mem_cons_of_mem _ ha)
        intro h a ha
        rcases mem_cons.mp ha with rfl | ha
        · omega
        · exact h a ha
      rw [if_neg hpad, if_neg hpad]
      have hnext : p + 1 + ((mem (p + 1)).toNat + 1) = p + 2 + (mem (p + 1)).toNat := by omega
      dsimp only
      rw [hnext, ← @ih (p + 2 + (mem (p + 1)).toNat) (k + 1) (len - 1 - (mem (p + 1)).toNat)
        (by omega) (by omega) inside (by omega)]
      constructor
      · intro h
        refine ⟨h (p + 1) (mem_cons_of_mem _ mem_cons_self), ?_⟩
        intro a ha
        exact h a (mem_cons_of_mem _ (mem_cons_of_mem _ ha))
      rintro ⟨hlow, h⟩ a ha
      rcases mem_cons.mp ha with rfl | ha
      · omega
      rcases mem_cons.mp ha with rfl | ha
      · exact hlow
      · exact h a ha

lemma optionsWalkLoop_low : (∀ a ∈ (optionsWalkLoop mem turns p len).reads, p ≤ a) ∧
    ((optionsWalkLoop mem turns p len).result = true → p ∈ (optionsWalkLoop mem turns p len).reads) := by
  induction turns generalizing p len with
  | zero =>
    refine ⟨?_, nofun⟩
    intro a ha
    exact absurd ha not_mem_nil
  | succ turns ih =>
    rw [optionsWalkLoop]
    split_ifs
    · refine ⟨?_, nofun⟩
      intro a ha
      exact absurd ha not_mem_nil
    · refine ⟨?_, fun _ => mem_singleton_self p⟩
      intro a ha
      exact (mem_singleton.mp ha).ge
    · refine ⟨?_, fun _ => mem_cons_self⟩
      intro a ha
      rcases mem_cons.mp ha with rfl | ha
      · exact le_rfl
      have hle := (@ih (p + 1) (len - 1)).1 a ha
      omega
    · refine ⟨?_, fun _ => mem_cons_self⟩
      intro a ha
      rcases mem_cons.mp ha with rfl | ha
      · exact le_rfl
      rcases mem_cons.mp ha with rfl | ha
      · exact Nat.le_succ _
      have hle := ih.1 a ha
      omega

lemma dhcpGetNextOption_yields (mem : Mem) (p : Nat) : (dhcpGetNextOption mem p 20).Yields mem p := by
  by_cases hshort : mem p = DHCPOPT_END ∨ mem p = DHCPOPT_PAD
  · rw [OptionCall.Yields, dhcpGetNextOption, optionAt, if_pos hshort, if_pos hshort]
    refine ⟨rfl, fun hend hpad => ?_⟩
    rcases hshort with h | h
    · exact absurd h hend
    · exact absurd h hpad
  rw [OptionCall.Yields, dhcpGetNextOption, optionAt, if_neg hshort, if_neg hshort]
  refine ⟨rfl, fun _ _ => ?_⟩
  have hmin : (if (mem (p + 1)).toNat < 20 then (mem (p + 1)).toNat else 20) = min 20 (mem (p + 1)).toNat := by
    split <;> omega
  dsimp only
  rw [hmin, readBytes_length]
  refine ⟨?_, rfl⟩
  rw [readBytes, readBytes, ← map_take, take_range]

lemma optionCalls_walk (hvalid : (optionsWalkLoop mem turns p len).result = true)
    (hreads : ∀ a ∈ (optionsWalkLoop mem turns p len).reads, a < stop) : ∃ calls, optionCalls mem turns p =
    some calls ∧ (∀ call ∈ calls, ∀ a ∈ call.reads, p ≤ a ∧ a < stop) ∧
    Forall₂ (fun call q => call.Yields mem q) calls (optionsWalkLoop mem turns p len).walked := by
  induction turns generalizing p len with
  | zero => exact absurd hvalid Bool.false_ne_true
  | succ turns ih =>
    have hyields := dhcpGetNextOption_yields mem p
    have htype : (dhcpGetNextOption mem p 20).type = mem p := by
      rw [dhcpGetNextOption]
      split <;> rfl
    rw [optionsWalkLoop] at hvalid hreads ⊢
    rw [optionCalls, htype]
    by_cases hdone : len ≤ 0
    · rw [if_pos hdone] at hvalid
      exact absurd hvalid Bool.false_ne_true
    rw [if_neg hdone] at hvalid hreads ⊢
    by_cases hend : mem p = DHCPOPT_END
    · rw [if_pos hend] at hreads ⊢
      rw [if_pos hend]
      refine ⟨_, rfl, ?_, .cons hyields .nil⟩
      intro call hcall a ha
      rw [mem_singleton.mp hcall, dhcpGetNextOption, if_pos (.inl hend)] at ha
      have hp := hreads p (mem_singleton_self p)
      rw [mem_singleton.mp ha]
      exact ⟨Nat.le_refl p, hp⟩
    rw [if_neg hend] at hvalid hreads ⊢
    rw [if_neg hend]
    by_cases hpad : mem p = DHCPOPT_PAD
    · rw [if_pos hpad] at hvalid hreads ⊢
      obtain ⟨calls, hcalls, hin, hall⟩ :=
        ih hvalid (fun a ha => hreads a (mem_cons_of_mem _ ha))
      have hnext : (dhcpGetNextOption mem p 20).nextopt = p + 1 := by
        rw [dhcpGetNextOption, if_pos (.inr hpad)]
      rw [hnext, hcalls]
      refine ⟨_, rfl, ?_, .cons hyields hall⟩
      intro call hcall a ha
      rcases mem_cons.mp hcall with rfl | hcall
      · rw [dhcpGetNextOption, if_pos (.inr hpad)] at ha
        have hp := hreads p mem_cons_self
        rw [mem_singleton.mp ha]
        exact ⟨Nat.le_refl p, hp⟩
      obtain ⟨hlow, hhigh⟩ := hin call hcall a ha
      exact ⟨by omega, hhigh⟩
    rw [if_neg hpad] at hvalid hreads ⊢
    dsimp only at hvalid hreads ⊢
    have hrest : ∀ a ∈ (optionsWalkLoop mem turns (p + 1 + ((mem (p + 1)).toNat + 1))
        (len - 1 - (mem (p + 1)).toNat)).reads, a < stop :=
      fun a ha => hreads a (mem_cons_of_mem _ (mem_cons_of_mem _ ha))
    obtain ⟨calls, hcalls, hin, hall⟩ := ih hvalid hrest
    have hneither : ¬(mem p = DHCPOPT_END ∨ mem p = DHCPOPT_PAD) := not_or.mpr ⟨hend, hpad⟩
    have hnext : (dhcpGetNextOption mem p 20).nextopt = p + 1 + ((mem (p + 1)).toNat + 1) := by
      rw [dhcpGetNextOption, if_neg hneither]
      dsimp only
      omega
    rw [hnext, hcalls]
    refine ⟨_, rfl, ?_, .cons hyields hall⟩
    intro call hcall a ha
    rcases mem_cons.mp hcall with rfl | hcall
    · have hp := hrest _ (optionsWalkLoop_low.2 hvalid)
      rw [dhcpGetNextOption, if_neg hneither] at ha
      rcases mem_cons.mp ha with rfl | ha
      · omega
      rcases mem_cons.mp ha with rfl | ha
      · omega
      obtain ⟨i, hi, rfl⟩ := mem_map.mp ha
      have hi := mem_range.mp hi
      split at hi <;> omega
    obtain ⟨hlow, hhigh⟩ := hin call hcall a ha
    exact ⟨by omega, hhigh⟩

end

/-- The options are read right exactly if no option is looked for behind the end of the buffer. -/
theorem options_right_iff (mem : Mem) (opt : Nat) (len : Int) :
    OptionsRight mem opt len ↔ OptionsOk mem (opt + len.toNat) (len.toNat + 1) opt 0 := by
  by_cases hneg : len < 0
  · -- a negative length has no turn
    have hnil : len.toNat = 0 := by omega
    have hwalk : optionsWalk mem opt len = ⟨false, [], []⟩ := by
      rw [optionsWalk, hnil]
      rfl
    refine iff_of_true ⟨?_, ?_⟩ ?_
    · rw [hwalk]
      intro a ha
      exact absurd ha not_mem_nil
    · intro hvalid
      rw [← optionsWalk_result, hwalk] at hvalid
      exact absurd hvalid Bool.false_ne_true
    rw [hnil, Nat.add_zero, OptionsOk, if_pos le_rfl]
    exact Nat.zero_le _
  have hlen : len = ((opt + len.toNat : Nat) : Int) - opt + (0 : Nat) := by omega
  have hiff := @optionsWalkLoop_reads_iff mem (opt + len.toNat) len.toNat opt 0 len hlen le_rfl
    (len.toNat + 1) (by omega)
  rw [← hiff]
  constructor
  · intro h a ha
    have hread := (h.reads a ha).2
    omega
  intro h
  refine ⟨?_, ?_⟩
  · intro a ha
    have hlow := optionsWalkLoop_low.1 a ha
    have hhigh := h a ha
    exact ⟨hlow, by omega⟩
  intro hvalid
  rw [← optionsWalk_result] at hvalid
  obtain ⟨calls, hcalls, hin, hall⟩ := optionCalls_walk hvalid h
  refine ⟨_, calls, hcalls, ?_, hall⟩
  intro call hcall a ha
  obtain ⟨hlow, hhigh⟩ := hin call hcall a ha
  exact ⟨hlow, by omega⟩

/-- One option with one byte of data, and nothing behind it. -/
theorem unended_options_overread : ¬OptionsRight (memcpy (fun _ => 255) 0 [0x35, 1, 1]) 0 3 := by
  intro h
  have hread := (h.reads 3 (by decide)).2
  omega

end Vde
