import Mathlib.Tactic.ByContra
import Mathlib.Tactic.SplitIfs
import Vde.Ipn

/-!
# The size of an IPN network

`ipn_netresize` with a protocol that may refuse the new size. The old table of the ports is kept until the protocol has
answered, so a refusal can be undone; but the number of ports is an `unsigned short`, and a size above 65535 is cut.
-/

namespace Vde.Ipn

def Network.resized (w : Network) (newsize : Int) : Network :=
  let m := if newsize < w.maxports then newsize.toNat else w.maxports
  { w with
    connport := fun p => if p < m then w.connport p else none
    maxports := u16 newsize }

def ipnNetresizeFor (resizenet : Network → Int → Int → Int) (w : Network) (newsize : Int) (netLock alloc : Bool) :
    Int × Network :=
  if !netLock then (-ERESTARTSYS, w)
  else
    let oldsize : Int := w.maxports
    if newsize = oldsize then (0, w)
    else if newsize < oldsize ∧ ∃ i < w.maxports, newsize.toNat ≤ i ∧ (w.connport i).isSome then (-EADDRINUSE, w)
    else if !alloc then (-ENOMEM, w)
    else
      let err := resizenet (w.resized newsize) oldsize newsize
      -- a refusal puts the old table and the old size back
      if err ≠ 0 then (err, { w.resized newsize with connport := w.connport, maxports := u16 oldsize })
      else (0, w.resized newsize)

/-- The calls of a run resize networks whose protocol accepts every size. -/
lemma ipnNetresize_eq {s : State} {k : Nat} {w : Network} (hw : s.nets k = some w) (n : Int) (netLock alloc : Bool) :
    ipnNetresize s k n netLock alloc =
      let r := ipnNetresizeFor (fun _ _ _ => 0) w n netLock alloc
      (r.1, s.setNet k r.2) := by
  have hsame : s.setNet k w = s := by
    rw [State.setNet, ← hw, Function.update_eq_self]
  simp only [ipnNetresize, State.net, hw, ipnNetresizeFor, ne_eq, not_true, if_false]
  split_ifs with hlock hsize hfree hmem hless
  · rw [hsame]
  · rw [hsame]
  · rw [hsame]
  · rw [hsame]
  · simp only [Network.resized, if_pos hless]
  · simp only [Network.resized, if_neg hless]

/-- A resize to `n` ports is right: with the value 0 the connected nodes have kept their ports, these are below the new
size, and that is `n`; with an error the table and the size are as before. -/
structure ResizeRight (w : Network) (n : Int) (r : Int × Network) : Prop where
  kept : r.1 = 0 → ∀ p < w.maxports, (w.connport p).isSome → r.2.connport p = w.connport p
  below : r.1 = 0 → ∀ p < w.maxports, (w.connport p).isSome → p < r.2.maxports
  size : r.1 = 0 → r.2.maxports = n
  restored : r.1 ≠ 0 → r.2.connport = w.connport ∧ r.2.maxports = w.maxports

variable {w : Network} {n : Int}

lemma ResizeRight.refused {err : Int} (herr : err ≠ 0) : ResizeRight w n (err, w) where
  kept h := absurd h herr
  below h := absurd h herr
  size h := absurd h herr
  restored _ := ⟨rfl, rfl⟩

lemma ResizeRight.resized (hn : 1 ≤ n) (hfits : n < 65536)
    (hfree : ¬(n < w.maxports ∧ ∃ i < w.maxports, n.toNat ≤ i ∧ (w.connport i).isSome)) :
    ResizeRight w n (0, w.resized n) := by
  have hu16 : (u16 n : Int) = n := by
    rw [u16]
    omega
  have hbelow : ∀ p < w.maxports, (w.connport p).isSome → p < n.toNat := by
    intro p hp hsome
    by_contra hge
    exact hfree ⟨by omega, p, hp, by omega, hsome⟩
  refine ⟨fun _ p hp hsome => ?_, fun _ p hp hsome => ?_, fun _ => hu16, fun h => absurd rfl h⟩
  · have hlt := hbelow p hp hsome
    have hm : p < if n < w.maxports then n.toNat else w.maxports := by
      split
      · exact hlt
      · exact hp
    simp only [Network.resized, if_pos hm]
  have hlt := hbelow p hp hsome
  change p < u16 n
  omega

/-- For every network, protocol and size the resize is right exactly when the size fits in an `unsigned short` or the
call fails: when it is interrupted, without memory, or refused by the protocol. -/
theorem netresize_right_iff (resizenet : Network → Int → Int → Int) {w : Network} (hw : w.maxports < 65536)
    {n : Int} (hn : 1 ≤ n) (netLock alloc : Bool) : ResizeRight w n (ipnNetresizeFor resizenet w n netLock alloc) ↔
    n < 65536 ∨ netLock = false ∨ alloc = false ∨ resizenet (w.resized n) w.maxports n ≠ 0 := by
  rw [ipnNetresizeFor]
  cases netLock with
  | false => exact iff_of_true (.refused (by decide)) (.inr (.inl rfl))
  | true =>
    rw [if_neg (by decide)]
    by_cases hsame : n = w.maxports
    · simp only [if_pos hsame]
      refine iff_of_true ?_ (.inl (by omega))
      exact ⟨fun _ _ _ _ => rfl, fun _ p hp _ => hp, fun _ => hsame.symm, fun h => absurd rfl h⟩
    simp only [if_neg hsame]
    by_cases hfree : n < w.maxports ∧ ∃ i < w.maxports, n.toNat ≤ i ∧ (w.connport i).isSome
    · rw [if_pos hfree]
      exact iff_of_true (.refused (by decide)) (.inl (by omega))
    rw [if_neg hfree]
    cases alloc with
    | false => exact iff_of_true (.refused (by decide)) (.inr (.inr (.inl rfl)))
    | true =>
      rw [if_neg (by decide)]
      by_cases herr : resizenet (w.resized n) w.maxports n = 0
      · rw [if_neg (not_not.mpr herr)]
        constructor
        · intro h
          have hsize : ((w.resized n).maxports : Int) = n := h.size rfl
          have hcut : (w.resized n).maxports = (n % 65536).toNat := rfl
          exact .inl (by omega)
        rintro (hfits | hlock | hmem | hrefused)
        · exact .resized hn hfits hfree
        · cases hlock
        · cases hmem
        · exact absurd herr hrefused
      rw [if_pos herr]
      refine iff_of_true ⟨?_, ?_, ?_, fun _ => ⟨rfl, ?_⟩⟩ (.inr (.inr (.inr herr)))
      · exact fun h => absurd h herr
      · exact fun h => absurd h herr
      · exact fun h => absurd h herr
      · change u16 w.maxports = w.maxports
        rw [u16]
        omega

def eightPorts : Network where
  protocol := 1
  flags := 0
  maxports := 8
  connport := fun p => if p = 2 then some 5 else none
  connectqueue := [5]
  unconnectqueue := []
  refcnt := 1
  chrdev := none

def refuseAbove64 (_ : Network) (_ newsize : Int) : Int := if 64 < newsize then -EINVAL else 0

theorem netresize_right_iff_refused :
    ResizeRight eightPorts 70000 (ipnNetresizeFor refuseAbove64 eightPorts 70000 true true) :=
  (netresize_right_iff refuseAbove64 (by decide) (by decide) true true).mpr (.inr (.inr (.inr (by decide))))

theorem resize_to_65537 :
    ¬ResizeRight eightPorts 65537 (ipnNetresizeFor (fun _ _ _ => 0) eightPorts 65537 true true) := by
  intro h
  have hbelow := h.below rfl 2 (by decide) rfl
  exact absurd hbelow (by decide)

end Vde.Ipn
