import Mathlib.Data.List.TakeWhile
import Vde.Cmdparse

/-!
# The templates of a parsing machine

What a `SEND` state should write is its string with the references to arguments replaced. The scanner skips the byte
behind a number, and behind a `$` without one, so it is right for all arguments exactly where there are no such
references.
-/

namespace Vde.Cmd

open List

def numberOf (ds : List UInt8) : Nat := ds.foldl (fun n d => n * 10 + (d.toNat - 48)) 0

def Args.argument (args : Args) (n : Nat) : List UInt8 :=
  if (n : Int) < args.argc then args.argv.getD (args.shifted + n) [] else []

/-- A template with its references replaced: `$*` and `$0` by all arguments and `$N` by argument `N`, unless there is a
backslash in front. `prev` is the byte in front of the text. -/
def expand (args : Args) (prev : Option UInt8) (text : List UInt8) : List UInt8 :=
  match text with
  | [] => []
  | c :: t =>
    if c = 36 ∧ prev ≠ some 92 ∧ (t.headD 0 = 42 ∨ t.headD 0 = 48) then args.all ++ expand args t.head? t.tail
    else if c = 36 ∧ prev ≠ some 92 ∧ isDigit (t.headD 0) then
      args.argument (numberOf (t.takeWhile isDigit)) ++
        expand args (t.takeWhile isDigit).getLast? (t.dropWhile isDigit)
    else c :: expand args (some c) t
termination_by text.length
decreasing_by
  · rw [length_tail, length_cons]
    omega
  · exact Nat.lt_succ_of_le (dropWhile_suffix _).length_le
  · exact Nat.lt_succ_self _

def Simple : Option UInt8 → List UInt8 → Prop
  | _, [] => True
  | prev, c :: t => (c = 36 → prev ≠ some 92 → t.headD 0 = 42 ∨ t.headD 0 = 48) ∧ Simple (some c) t

variable {args : Args} {prev : Option UInt8} {c : UInt8} {t : List UInt8}

lemma expand_all (hc : c = 36) (hprev : prev ≠ some 92) (h : t.headD 0 = 42 ∨ t.headD 0 = 48) :
    expand args prev (c :: t) = args.all ++ expand args t.head? t.tail := by
  rw [expand, if_pos ⟨hc, hprev, h⟩]

lemma expand_number (hc : c = 36) (hprev : prev ≠ some 92) (hall : ¬(t.headD 0 = 42 ∨ t.headD 0 = 48))
    (h : isDigit (t.headD 0) = true) :
    expand args prev (c :: t) =
      args.argument (numberOf (t.takeWhile isDigit)) ++
        expand args (t.takeWhile isDigit).getLast? (t.dropWhile isDigit) := by
  rw [expand, if_neg fun hboth => hall hboth.2.2, if_pos ⟨hc, hprev, h⟩]

lemma expand_copy
    (h : ¬(c = 36 ∧ prev ≠ some 92 ∧ (t.headD 0 = 42 ∨ t.headD 0 = 48 ∨ isDigit (t.headD 0) = true))) :
    expand args prev (c :: t) = c :: expand args (some c) t := by
  rw [expand, if_neg fun hall => h ⟨hall.1, hall.2.1, hall.2.2.elim .inl fun h => .inr (.inl h)⟩,
    if_neg fun hnum => h ⟨hnum.1, hnum.2.1, .inr (.inr hnum.2.2)⟩]

/-! ## Templates without numbers -/

lemma sendLoop_simple {turns : Nat} (hturns : t.length ≤ turns) (h : Simple prev t) :
    sendLoop args turns prev t = some (expand args prev t) := by
  induction turns generalizing prev t with
  | zero =>
    have ht : t = [] := eq_nil_of_length_eq_zero (Nat.le_zero.mp hturns)
    rw [ht, expand]
    rfl
  | succ turns ih =>
    cases t with
    | nil =>
      rw [expand]
      rfl
    | cons c t =>
      have hless : t.length ≤ turns := Nat.le_of_succ_le_succ hturns
      by_cases href : c = 36 ∧ prev ≠ some 92
      · have hall := h.1 href.1 href.2
        rw [sendLoop, if_pos href, if_pos hall, expand_all href.1 href.2 hall]
        cases t with
        | nil => exact absurd hall (by decide)
        | cons x t =>
          rw [head?_cons, tail_cons, ih (Nat.le_of_succ_le hless) h.2.2]
          rfl
      rw [sendLoop, if_neg href, expand_copy fun hno => href ⟨hno.1, hno.2.1⟩, ih hless h.2]
      rfl

/-! ## Templates with numbers

For two empty arguments the scanner writes a text of less weight than it should, as soon as it meets a reference by
number, or a `$` that is none. -/

/-- Weights: a skipped byte weighs something, and the byte behind a skipped `$` less than what the reference gives. -/
def weight (c : UInt8) : Int := if isDigit c then -1 else if c = 36 ∨ c = 42 then 1 else 2

def weightOf (text : List UInt8) : Int := (text.map weight).sum

@[simp] lemma weightOf_cons (c : UInt8) (t : List UInt8) : weightOf (c :: t) = weight c + weightOf t := by
  simp [weightOf]

@[simp] lemma weightOf_append (t t' : List UInt8) : weightOf (t ++ t') = weightOf t + weightOf t' := by
  simp [weightOf]

lemma weight_pos (h : isDigit c = false) : 1 ≤ weight c := by
  rw [weight, h, if_neg Bool.false_ne_true]
  split_ifs <;> decide

def twoEmpty : Args := ⟨[[], []], 0⟩

lemma twoEmpty_all : weightOf twoEmpty.all = 2 := rfl

lemma twoEmpty_argument (n : Nat) : twoEmpty.argument n = [] := by
  have hnone : twoEmpty.argv.getD (twoEmpty.shifted + n) [] = [] := by
    rcases n with _ | _ | n <;> rfl
  rw [Args.argument, hnone, ite_self]

lemma twoEmpty_get {i : Int} {arg : List UInt8} (h : twoEmpty.get i = some arg) : arg = [] := by
  unfold Args.get at h
  split_ifs at h with hi
  have hmem : arg ∈ twoEmpty.argv := mem_of_getElem? h
  simpa [twoEmpty] using hmem

lemma digit_ne (h : isDigit c = true) : c ≠ 36 := by
  rintro rfl
  cases h

lemma expand_digits {ds : List UInt8} (h : ∀ d ∈ ds, isDigit d = true) (prev : Option UInt8) (rest : List UInt8) :
    expand args prev (ds ++ rest) = ds ++ expand args (ds.getLast?.or prev) rest := by
  induction ds generalizing prev with
  | nil => rfl
  | cons d ds ih =>
    have hd : isDigit d = true := h d mem_cons_self
    have hlast : (d :: ds).getLast?.or prev = ds.getLast?.or (some d) := by
      rw [getLast?_cons]
      cases ds.getLast? <;> rfl
    rw [cons_append, expand_copy fun hno => digit_ne hd hno.1,
      ih (fun e he => h e (mem_cons_of_mem d he)), hlast]
    rfl

lemma weight_digits {ds : List UInt8} (h : ∀ d ∈ ds, isDigit d = true) : weightOf ds = -(ds.length : Int) := by
  induction ds with
  | nil => rfl
  | cons d ds ih =>
    have hd : weight d = -1 := if_pos (h d mem_cons_self)
    rw [weightOf_cons, hd, ih fun e he => h e (mem_cons_of_mem d he), length_cons]
    omega

lemma weight_skip (hc : isDigit c = false) (hprev : prev ≠ some 92) (t : List UInt8) :
    weightOf (expand twoEmpty (some c) t) < weightOf (expand twoEmpty prev (c :: t)) := by
  by_cases href : c = 36
  · subst href
    by_cases hall : t.headD 0 = 42 ∨ t.headD 0 = 48
    · rw [expand_all rfl hprev hall, weightOf_append, twoEmpty_all]
      cases t with
      | nil => exact absurd hall (by decide)
      | cons x t =>
        have hx : x ≠ 36 := by
          rintro rfl
          cases hall with
          | inl h => cases h
          | inr h => cases h
        have hlight : weight x ≤ 1 := by
          rcases hall with h | h
          · rw [show x = 42 from h]
            decide
          rw [show x = 48 from h]
          decide
        rw [expand_copy fun hno => hx hno.1, weightOf_cons, head?_cons, tail_cons]
        omega
    by_cases hnum : isDigit (t.headD 0) = true
    · have hdigits : ∀ d ∈ t.takeWhile isDigit, isDigit d = true := fun d hd => mem_takeWhile_imp hd
      have hsplit :
          expand twoEmpty (some 36) (t.takeWhile isDigit ++ t.dropWhile isDigit) =
            t.takeWhile isDigit ++
              expand twoEmpty ((t.takeWhile isDigit).getLast?.or (some 36)) (t.dropWhile isDigit) :=
        expand_digits hdigits (some 36) (t.dropWhile isDigit)
      rw [takeWhile_append_dropWhile] at hsplit
      rw [expand_number rfl hprev hall hnum, twoEmpty_argument, nil_append, hsplit, weightOf_append,
        weight_digits hdigits]
      cases t with
      | nil => exact absurd hnum (by decide)
      | cons x t =>
        have hx : isDigit x = true := hnum
        have hlast : ((x :: t).takeWhile isDigit).getLast?.or (some 36) = ((x :: t).takeWhile isDigit).getLast? := by
          rw [takeWhile_cons_of_pos hx, getLast?_cons]
          rfl
        rw [hlast, takeWhile_cons_of_pos hx, length_cons]
        omega
    rw [expand_copy (c := 36) fun hno => hno.2.2.elim (fun h => hall (.inl h))
      fun h => h.elim (fun h => hall (.inr h)) hnum, weightOf_cons]
    have hheavy : weight 36 = 1 := by decide
    omega
  · have hheavy := weight_pos hc
    rw [expand_copy fun hno => href hno.1, weightOf_cons]
    omega

lemma sendLoop_skips {turns : Nat} {out : List UInt8} (hprev : prev ≠ some 92)
    (hall : ¬(t.headD 0 = 42 ∨ t.headD 0 = 48)) (h : sendLoop twoEmpty (turns + 1) prev (36 :: t) = some out) :
    ∃ next rest, t.dropWhile isDigit = next :: rest ∧ sendLoop twoEmpty turns (some next) rest = some out := by
  rw [sendLoop, if_pos ⟨rfl, hprev⟩, if_neg hall] at h
  dsimp only at h
  cases hdrop : t.dropWhile isDigit with
  | nil =>
    rw [hdrop] at h
    split at h
    · next hcons => cases hcons
    · cases h
  | cons next rest =>
    rw [hdrop] at h
    split at h
    · next arg next' rest' harg hcons =>
      cases hcons
      have hempty : arg = [] := by
        split_ifs at harg with hlt
        · exact twoEmpty_get harg
        · exact (Option.some.inj harg).symm
      rw [hempty, Option.map_eq_some_iff] at h
      obtain ⟨text, htext, rfl⟩ := h
      exact ⟨next, rest, rfl, htext⟩
    · cases h

lemma weight_behind {next : UInt8} {rest : List UInt8} (hprev : prev ≠ some 92)
    (hall : ¬(t.headD 0 = 42 ∨ t.headD 0 = 48)) (hdrop : t.dropWhile isDigit = next :: rest) :
    weightOf (expand twoEmpty (some next) rest) < weightOf (expand twoEmpty prev (36 :: t)) := by
  have hnext : isDigit next = false := by
    have hne : t.dropWhile isDigit ≠ [] := by
      rw [hdrop]
      exact cons_ne_nil _ _
    have hhead := head_dropWhile_not isDigit hne
    simpa [hdrop] using hhead
  by_cases hnum : isDigit (t.headD 0) = true
  · have hlast : (t.takeWhile isDigit).getLast? ≠ some 92 := by
      intro hlast
      have hdigit : isDigit 92 = true := mem_takeWhile_imp (mem_of_getLast? hlast)
      cases hdigit
    rw [expand_number rfl hprev hall hnum, twoEmpty_argument, nil_append, hdrop]
    exact weight_skip hnext hlast rest
  have ht : t = next :: rest := by
    cases t with
    | nil => cases hdrop
    | cons x t =>
      have hx : ¬isDigit x = true := hnum
      rwa [dropWhile_cons_of_neg hx] at hdrop
  have hheavy : weight 36 = 1 := by decide
  have hskip := weight_skip hnext (show some 36 ≠ some 92 by decide) rest
  rw [expand_copy fun hno => hno.2.2.elim (fun h => hall (.inl h)) fun h => h.elim (fun h => hall (.inr h)) hnum,
    weightOf_cons, ht]
  omega

lemma sendLoop_weight {turns : Nat} (hturns : t.length ≤ turns) {out : List UInt8}
    (h : sendLoop twoEmpty turns prev t = some out) : weightOf out ≤ weightOf (expand twoEmpty prev t) ∧
    (¬Simple prev t → weightOf out < weightOf (expand twoEmpty prev t)) := by
  induction turns generalizing prev t out with
  | zero =>
    have ht : t = [] := eq_nil_of_length_eq_zero (Nat.le_zero.mp hturns)
    subst ht
    cases h
    rw [expand]
    exact ⟨Int.le_refl _, fun hno => absurd trivial hno⟩
  | succ turns ih =>
    cases t with
    | nil =>
      cases h
      rw [expand]
      exact ⟨Int.le_refl _, fun hno => absurd trivial hno⟩
    | cons c t =>
      have hless : t.length ≤ turns := Nat.le_of_succ_le_succ hturns
      by_cases href : c = 36 ∧ prev ≠ some 92
      · obtain ⟨rfl, hprev⟩ := href
        by_cases hall : t.headD 0 = 42 ∨ t.headD 0 = 48
        · rw [sendLoop, if_pos ⟨rfl, hprev⟩, if_pos hall, Option.map_eq_some_iff] at h
          obtain ⟨rest, hrest, rfl⟩ := h
          rw [expand_all rfl hprev hall, weightOf_append, weightOf_append]
          cases t with
          | nil => exact absurd hall (by decide)
          | cons x t =>
            obtain ⟨hle, hlt⟩ := ih (Nat.le_of_succ_le hless) hrest
            rw [head?_cons] at hle hlt ⊢
            rw [tail_cons]
            refine ⟨by omega, fun hno => ?_⟩
            have hx : x ≠ 36 := by
              rintro rfl
              cases hall with
              | inl h => cases h
              | inr h => cases h
            have hbad : ¬Simple (some x) t := fun hs => hno ⟨fun _ _ => hall, fun hx' => absurd hx' hx, hs⟩
            have := hlt hbad
            omega
        -- the byte behind the digits is skipped
        obtain ⟨next, rest, hdrop, hrest⟩ := sendLoop_skips hprev hall h
        have hshort : rest.length ≤ turns := by
          have hle := (dropWhile_suffix isDigit (l := t)).length_le
          rw [hdrop, length_cons] at hle
          omega
        have hstrict := Int.lt_of_le_of_lt (ih hshort hrest).1 (weight_behind hprev hall hdrop)
        exact ⟨Int.le_of_lt hstrict, fun _ => hstrict⟩
      rw [sendLoop, if_neg href, Option.map_eq_some_iff] at h
      obtain ⟨rest, hrest, rfl⟩ := h
      obtain ⟨hle, hlt⟩ := ih hless hrest
      rw [expand_copy fun hno => href ⟨hno.1, hno.2.1⟩, weightOf_cons, weightOf_cons]
      refine ⟨by omega, fun hno => ?_⟩
      have hbad : ¬Simple (some c) t := fun hs => hno ⟨fun hc hp => absurd ⟨hc, hp⟩ href, hs⟩
      have := hlt hbad
      omega

/-- For every template: the scanner writes the template with its references replaced, and looks at nothing behind its end,
for all argument vectors exactly when each `$` without a backslash in front has a `*` or a `0` behind it. -/
theorem sendText_right_iff (template : List UInt8) :
    (∀ args, sendText args template = some (expand args none template)) ↔ Simple none template := by
  constructor
  · intro h
    by_contra hno
    have hlt := (sendLoop_weight le_rfl (h twoEmpty)).2 hno
    exact absurd hlt (Int.lt_irrefl _)
  intro h args
  exact sendLoop_simple le_rfl h

/-- Behind `$1` the newline is lost, and at the end of a template the scanner goes on behind it. -/
theorem byte_behind_number_lost : sendText ⟨[[97], [98]], 0⟩ [36, 49, 10] = some [98] ∧
    expand ⟨[[97], [98]], 0⟩ none [36, 49, 10] = [98, 10] ∧ sendText ⟨[[97], [98]], 0⟩ [36, 49] = none := by
  refine ⟨by decide, ?_, by decide⟩
  rw [expand_number rfl (by decide) (by decide) (by decide)]
  have hrest : expand ⟨[[97], [98]], 0⟩ (some 49) [10] = [10] := by
    rw [expand_copy (by decide), expand]
  exact congrArg (fun text => [98] ++ text) hrest

end Vde.Cmd
