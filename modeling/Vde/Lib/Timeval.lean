import Mathlib.Tactic.Lemma

/-!
# Times

`struct timeval` and the macros on it.
-/

namespace Vde

structure Timeval where
  sec : Int
  usec : Int
  deriving DecidableEq, Repr

def Timeval.micros (t : Timeval) : Int := t.sec * 1000000 + t.usec

def Timeval.Normal (t : Timeval) : Prop := 0 ≤ t.usec ∧ t.usec < 1000000

def timerLt (a b : Timeval) : Bool := if a.sec = b.sec then a.usec < b.usec else a.sec < b.sec

def timersub (a b : Timeval) : Timeval :=
  if a.usec - b.usec < 0 then ⟨a.sec - b.sec - 1, a.usec - b.usec + 1000000⟩
  else ⟨a.sec - b.sec, a.usec - b.usec⟩

lemma timersub_micros (a b : Timeval) : (timersub a b).micros = a.micros - b.micros := by
  rw [timersub]
  split
  · simp only [Timeval.micros]
    omega
  simp only [Timeval.micros]
  omega

lemma timersub_normal {a b : Timeval} (ha : a.Normal) (hb : b.Normal) : (timersub a b).Normal := by
  obtain ⟨ha0, ha1⟩ := ha
  obtain ⟨hb0, hb1⟩ := hb
  rw [timersub, Timeval.Normal]
  split
  · dsimp only
    omega
  dsimp only
  omega

end Vde
