import Mathlib.Data.List.Basic

/-!
# A plain line editor

A line with a cursor, and the lines that were entered before it. The cursor keys move the cursor and keep the text. Up
and down show an older or a newer line, each as it was left, with the cursor at its end. A line that is entered becomes
the newest of the earlier ones, unless it is empty, and some lines end the editing.
-/

namespace Vde

universe u

inductive LineKey (α : Type u) where
  | char (c : α)
  | backspace
  | left
  | right
  | up
  | down
  | home
  | lineEnd
  | cancel
  | newline

/-- The line with its cursor. At `place` 0 it is the new line, and at `place` `k + 1` the earlier line `k`; `past` has
the earlier lines, the newest first, and `draft` the new line while an earlier one is shown. -/
structure Editor (α : Type u) where
  text : List α
  cursor : Nat
  past : List (List α)
  draft : List α
  place : Nat
  closed : Bool

namespace Editor

variable {α : Type u}

def start : Editor α := { text := [], cursor := 0, past := [], draft := [], place := 0, closed := false }

def save (e : Editor α) : Editor α :=
  if e.place = 0 then { e with draft := e.text } else { e with past := e.past.set (e.place - 1) e.text }

def lineAt (e : Editor α) (place : Nat) : List α := if place = 0 then e.draft else e.past.getD (place - 1) []

def showAt (e : Editor α) (place : Nat) : Editor α :=
  { e with place := place, text := e.lineAt place, cursor := (e.lineAt place).length }

def older (e : Editor α) : Nat := if e.place < e.past.length then e.place + 1 else e.place

section

variable (limit : Nat) (ends : List α → Bool)

/-- The line is entered; `limit` earlier lines are kept. -/
def enter (e : Editor α) : Editor α :=
  if ends e.text then { e with cursor := e.text.length, closed := true }
  else
    { e with
      text := []
      cursor := 0
      past := if e.text.isEmpty then e.past else (e.text :: e.past).take limit
      place := 0 }

def apply (e : Editor α) (key : LineKey α) : Editor α :=
  if e.closed then e
  else match key with
    | .char c => { e with text := e.text.take e.cursor ++ c :: e.text.drop e.cursor, cursor := e.cursor + 1 }
    | .backspace =>
      if 0 < e.cursor then { e with text := e.text.eraseIdx (e.cursor - 1), cursor := e.cursor - 1 } else e
    | .left => { e with cursor := e.cursor - 1 }
    | .right => if e.cursor < e.text.length then { e with cursor := e.cursor + 1 } else e
    | .up => e.save.showAt e.older
    | .down => e.save.showAt (e.place - 1)
    | .home => { e with cursor := 0 }
    | .lineEnd => { e with cursor := e.text.length }
    | .cancel => { e with text := [], cursor := 0 }
    | .newline => e.enter limit ends

def applyAll (e : Editor α) (keys : List (LineKey α)) : Editor α := keys.foldl (apply limit ends) e

variable {limit} {ends}

@[simp] lemma applyAll_cons (e : Editor α) (key : LineKey α) (keys : List (LineKey α)) :
    e.applyAll limit ends (key :: keys) = (e.apply limit ends key).applyAll limit ends keys := rfl

lemma applyAll_closed {e : Editor α} (h : e.closed = true) (keys : List (LineKey α)) :
    e.applyAll limit ends keys = e := by
  induction keys with
  | nil => rfl
  | cons key keys ih =>
    have hkey : e.apply limit ends key = e := if_pos h
    rw [applyAll_cons, hkey, ih]

@[simp] lemma save_closed (e : Editor α) : e.save.closed = e.closed := by
  unfold save
  by_cases hzero : e.place = 0
  · rw [if_pos hzero]
  · rw [if_neg hzero]

@[simp] lemma save_length (e : Editor α) : e.save.past.length = e.past.length := by
  unfold save
  by_cases hzero : e.place = 0
  · rw [if_pos hzero]
  rw [if_neg hzero]
  exact List.length_set

end

end Editor

end Vde
