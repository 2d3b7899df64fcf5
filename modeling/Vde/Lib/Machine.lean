import Mathlib.Tactic.Lemma

/-!
# Runs of a machine

A machine takes one step for each event. `Reach` collects the states of all runs, `Always` and
`Along` speak about the states and about the steps of one run. The rules below are the only
inductions over runs that the developments above need.
-/

namespace Vde

universe u v

/-- A deterministic step for every event; `enabled` says which events the environment may
produce in a state. -/
structure Machine (σ : Type u) (ε : Type v) where
  enabled : σ → ε → Prop
  step : σ → ε → σ

namespace Machine

variable {σ : Type u} {ε : Type v} (M : Machine σ ε)

inductive Reach (start : σ → Prop) : σ → Prop
  | init (s : σ) (h : start s) : Reach start s
  | step (s : σ) (e : ε) (h : Reach start s) (he : M.enabled s e) : Reach start (M.step s e)

def run (s : σ) (es : List ε) : σ := es.foldl M.step s

/-- `P` holds of every step of the run, given the state before it and its event. -/
def Along (P : σ → ε → Prop) : σ → List ε → Prop
  | _, [] => True
  | s, e :: es => P s e ∧ Along P (M.step s e) es

/-- `P` holds of every state of the run. -/
def Always (P : σ → Prop) : σ → List ε → Prop
  | s, [] => P s
  | s, e :: es => P s ∧ Always P (M.step s e) es

variable {M}

theorem Reach.invariant {start : σ → Prop} (Inv : σ → Prop) (hinit : ∀ s, start s → Inv s)
    (hstep : ∀ s e, Inv s → M.enabled s e → Inv (M.step s e)) {s : σ} (h : M.Reach start s) : Inv s := by
  induction h with
  | init s h => exact hinit s h
  | step s e _ he ih => exact hstep s e ih he

theorem Reach.run {start : σ → Prop} {s : σ} (h : M.Reach start s) (es : List ε)
    (hes : M.Along M.enabled s es) : M.Reach start (M.run s es) := by
  induction es generalizing s with
  | nil => exact h
  | cons e es ih => exact ih (.step s e h hes.1) hes.2

theorem Along.of_forall {P : σ → ε → Prop} (h : ∀ s e, P s e) (s : σ) (es : List ε) : M.Along P s es := by
  induction es generalizing s with
  | nil => trivial
  | cons e es ih => exact ⟨h s e, ih _⟩

theorem Along.append {P : σ → ε → Prop} {s : σ} {es es' : List ε} (h : M.Along P s es)
    (h' : M.Along P (M.run s es) es') : M.Along P s (es ++ es') := by
  induction es generalizing s with
  | nil => exact h'
  | cons e es ih => exact ⟨h.1, ih h.2 h'⟩

theorem Along.of_append {P : σ → ε → Prop} {s : σ} {es es' : List ε} (h : M.Along P s (es ++ es')) :
    M.Along P s es ∧ M.Along P (M.run s es) es' := by
  induction es generalizing s with
  | nil => exact ⟨trivial, h⟩
  | cons e es ih =>
    obtain ⟨hfirst, hrest⟩ := h
    exact ⟨⟨hfirst, (ih hrest).1⟩, (ih hrest).2⟩

theorem Along.and {P Q : σ → ε → Prop} {s : σ} {es : List ε} (hP : M.Along P s es) (hQ : M.Along Q s es) :
    M.Along (fun s e => P s e ∧ Q s e) s es := by
  induction es generalizing s with
  | nil => trivial
  | cons e es ih => exact ⟨⟨hP.1, hQ.1⟩, ih hP.2 hQ.2⟩

theorem Always.head {P : σ → Prop} {s : σ} {es : List ε} (h : M.Always P s es) : P s := by
  cases es with
  | nil => exact h
  | cons e es => exact h.1

theorem Always.last {P : σ → Prop} {s : σ} {es : List ε} (h : M.Always P s es) : P (M.run s es) := by
  induction es generalizing s with
  | nil => exact h
  | cons e es ih => exact ih h.2

section

variable {P : σ → Prop} {s : σ} (Inv : σ → Prop) (hP : ∀ s, Inv s → P s)

include Inv hP

theorem Along.always {ok : σ → ε → Prop} (hok : ∀ s e, Inv s → ok s e → Inv (M.step s e)) (hs : Inv s) {es : List ε}
    (hes : M.Along ok s es) : M.Always P s es := by
  induction es generalizing s with
  | nil => exact hP s hs
  | cons e es ih => exact ⟨hP s hs, ih (hok s e hs hes.1) hes.2⟩

theorem Along.always_and_along {Q ok : σ → ε → Prop} (hok : ∀ s e, Inv s → ok s e → Inv (M.step s e) ∧ Q s e)
    (hs : Inv s) {es : List ε} (hes : M.Along ok s es) : M.Always P s es ∧ M.Along Q s es := by
  induction es generalizing s with
  | nil => exact ⟨hP s hs, trivial⟩
  | cons e es ih =>
    obtain ⟨hInv, hQ⟩ := hok s e hs hes.1
    obtain ⟨hPs, hQs⟩ := ih hInv hes.2
    exact ⟨⟨hP s hs, hPs⟩, hQ, hQs⟩

/-- A property `P` of states and a property `Q` of steps that a step has exactly when it meets `ok`, as
long as the invariant `Inv` held before it, hold along a run exactly when all its steps meet `ok`. -/
theorem always_and_along_iff {Q ok : σ → ε → Prop}
    (hok : ∀ s e, Inv s → M.enabled s e → ok s e → Inv (M.step s e) ∧ Q s e)
    (hbad : ∀ s e, Inv s → M.enabled s e → ¬ok s e → ¬(P (M.step s e) ∧ Q s e)) (hs : Inv s) (es : List ε)
    (hes : M.Along M.enabled s es) : M.Always P s es ∧ M.Along Q s es ↔ M.Along ok s es := by
  constructor
  · induction es generalizing s with
    | nil => exact fun _ => trivial
    | cons e es ih =>
      obtain ⟨he, hrest⟩ := hes
      rintro ⟨⟨_, htail⟩, hQ, hQs⟩
      by_cases h : ok s e
      · exact ⟨h, ih (hok s e hs he h).1 hrest ⟨htail, hQs⟩⟩
      · exact absurd ⟨htail.head, hQ⟩ (hbad s e hs he h)
  intro h
  exact Along.always_and_along Inv hP (fun s e hs hboth => hok s e hs hboth.1 hboth.2) hs (hes.and h)

theorem always_iff_along {ok : σ → ε → Prop} (hok : ∀ s e, Inv s → M.enabled s e → ok s e → Inv (M.step s e))
    (hbad : ∀ s e, Inv s → M.enabled s e → ¬ok s e → ¬P (M.step s e)) (hs : Inv s) (es : List ε)
    (hes : M.Along M.enabled s es) : M.Always P s es ↔ M.Along ok s es := by
  have htrue : M.Along (fun _ _ => True) s es := Along.of_forall (fun _ _ => trivial) s es
  rw [← always_and_along_iff (Q := fun _ _ => True) Inv hP (fun s e hs he h => ⟨hok s e hs he h, trivial⟩)
    (fun s e hs he h => fun hboth => hbad s e hs he h hboth.1) hs es hes]
  exact ⟨fun h => ⟨h, htrue⟩, fun h => h.1⟩

end

theorem along_iff (Inv : σ → Prop) {Q ok : σ → ε → Prop}
    (hok : ∀ s e, Inv s → M.enabled s e → ok s e → Inv (M.step s e) ∧ Q s e)
    (hbad : ∀ s e, Inv s → M.enabled s e → ¬ok s e → ¬Q s e)
    {s : σ} (hs : Inv s) (es : List ε) (hes : M.Along M.enabled s es) : M.Along Q s es ↔ M.Along ok s es := by
  induction es generalizing s with
  | nil => exact Iff.rfl
  | cons e es ih =>
    have hfirst : Q s e → ok s e := fun hQ => Classical.byContradiction fun h => hbad s e hs hes.1 h hQ
    constructor
    · intro h
      have hgood := hfirst h.1
      exact ⟨hgood, (ih (hok s e hs hes.1 hgood).1 hes.2).mp h.2⟩
    intro h
    obtain ⟨hInv, hQ⟩ := hok s e hs hes.1 h.1
    exact ⟨hQ, (ih hInv hes.2).mpr h.2⟩

theorem along_congr (Inv : σ → Prop) {Q ok en : σ → ε → Prop} (hstep : ∀ s e, Inv s → en s e → Inv (M.step s e))
    (h : ∀ s e, Inv s → en s e → (Q s e ↔ ok s e)) {s : σ} (hs : Inv s) (es : List ε) (hes : M.Along en s es) :
    M.Along Q s es ↔ M.Along ok s es := by
  induction es generalizing s with
  | nil => exact Iff.rfl
  | cons e es ih => exact and_congr (h s e hs hes.1) (ih (hstep s e hs hes.1) hes.2)

end Machine

end Vde
