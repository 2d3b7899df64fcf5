import Mathlib.Order.Filter.AtTopBot.Basic

/-!
# Programs that fail, and programs with fuel

A program that need not end takes a number, its fuel, and fails when the fuel is used up. It ends with a
value if it returns that value for every large enough fuel. `runLoop` is a loop whose turns take fuel
as well: a turn goes on with a new state or leaves with a result, and the loop ends exactly if it comes to
a state whose turn leaves.
-/

namespace Vde

open Filter

universe u v

section Fail

variable {ε : Type u} {α β : Type v}

@[simp] lemma ok_bind (a : α) (f : α → Except ε β) : (Except.ok a >>= f) = f a := rfl

@[simp] lemma error_bind (e : ε) (f : α → Except ε β) : (Except.error e >>= f) = Except.error e := rfl

@[simp] lemma pure_eq_ok (a : α) : (pure a : Except ε α) = .ok a := rfl

lemma bind_eq_ok {x : Except ε α} {f : α → Except ε β} {b : β} :
    x >>= f = .ok b ↔ ∃ a, x = .ok a ∧ f a = .ok b := by
  cases x with
  | error e =>
    constructor
    · intro h
      cases h
    rintro ⟨a, h, -⟩
    cases h
  | ok a =>
    constructor
    · intro h
      exact ⟨a, rfl, h⟩
    rintro ⟨a', h, hb⟩
    cases h
    exact hb

def Yields (P : α → Prop) (x : Except ε α) : Prop := ∀ a, x = .ok a → P a

lemma yields_ok {P : α → Prop} {a : α} (h : P a) : Yields P (.ok a : Except ε α) := by
  intro a' ha'
  cases ha'
  exact h

lemma yields_error (P : α → Prop) (e : ε) : Yields P (.error e : Except ε α) := by
  intro a ha
  cases ha

lemma Yields.bind {P : α → Prop} {Q : β → Prop} {x : Except ε α} {f : α → Except ε β} (h : Yields P x)
    (hf : ∀ a, P a → Yields Q (f a)) : Yields Q (x >>= f) := by
  intro b hb
  obtain ⟨a, ha, hfa⟩ := bind_eq_ok.mp hb
  exact hf a (h a ha) b hfa

lemma Yields.mono {P Q : α → Prop} {x : Except ε α} (h : Yields P x) (hPQ : ∀ a, P a → Q a) : Yields Q x :=
  fun a ha => hPQ a (h a ha)

/-- A step whose result is not looked at. -/
lemma Yields.skip {Q : β → Prop} {x : Except ε α} {f : α → Except ε β} (hf : ∀ a, Yields Q (f a)) : Yields Q (x >>= f) := by
  intro b hb
  obtain ⟨a, _, hfa⟩ := bind_eq_ok.mp hb
  exact hf a b hfa

end Fail

variable {f : Nat → Except ε α} {a : α} {n : Nat}

section Ends

variable {ε : Type u} {α β : Type v}

/-- With enough fuel the program returns `a`. -/
def Ends (f : Nat → Except ε α) (a : α) : Prop := ∀ᶠ n in atTop, f n = .ok a

def Below (x y : Except ε α) : Prop := ∀ a, x = .ok a → y = .ok a

def FuelMono (f : Nat → Except ε α) : Prop := ∀ ⦃n m⦄, n ≤ m → Below (f n) (f m)

lemma Below.refl (x : Except ε α) : Below x x := fun _ h => h

lemma below_error (e : ε) (y : Except ε α) : Below (.error e) y := by
  intro a h
  cases h

lemma Below.bind {x y : Except ε α} {f g : α → Except ε β} (h : Below x y) (hfg : ∀ a, Below (f a) (g a)) :
    Below (x >>= f) (y >>= g) := by
  intro b hb
  cases x with
  | error e => cases hb
  | ok a =>
    rw [h a rfl]
    exact hfg a b hb

lemma Ends.unique {f : Nat → Except ε α} {a b : α} (ha : Ends f a) (hb : Ends f b) : a = b := by
  obtain ⟨n, h₁, h₂⟩ := (ha.and hb).exists
  rw [h₁] at h₂
  cases h₂
  rfl

lemma ends_of_forall (h : ∀ n, f n = .ok a) : Ends f a :=
  Eventually.of_forall h

lemma FuelMono.ends (hm : FuelMono f) (h : f n = .ok a) : Ends f a :=
  eventually_atTop.mpr ⟨n, fun _ hn => hm hn a h⟩

lemma ends_succ_iff : Ends (fun n => f (n + 1)) a ↔ Ends f a := by
  have h : (∀ᶠ n in map (fun n => n + 1) atTop, f n = .ok a) ↔ ∀ᶠ n in atTop, f n = .ok a := by
    rw [map_add_atTop_eq_nat]
  exact h

end Ends

section Loop

variable {ε : Type u} {σ ρ : Type v} (hang : ε) (turn : Nat → σ → Except ε (σ ⊕ ρ))

def runLoop : Nat → σ → Except ε ρ
  | 0, _ => .error hang
  | n + 1, s => do
    match ← turn n s with
    | .inl s => runLoop n s
    | .inr r => pure r

inductive Visits (s : σ) : σ → Prop
  | start : Visits s s
  | turn {t u : σ} : Visits s t → Ends (fun n => turn n t) (.inl u) → Visits s u

variable {hang turn} {s t : σ} {r : ρ}

lemma Visits.trans {u : σ} (h : Visits turn s t) (h' : Visits turn t u) : Visits turn s u := by
  induction h' with
  | start => exact h
  | turn _ he ih => exact .turn ih he

lemma runLoop_inr (h : Ends (fun n => turn n s) (.inr r)) : Ends (fun n => runLoop hang turn n s) r := by
  apply ends_succ_iff.mp
  filter_upwards [h] with n hn
  rw [runLoop, hn]
  rfl

lemma runLoop_inl (h : Ends (fun n => turn n s) (.inl t)) :
    Ends (fun n => runLoop hang turn n s) r ↔ Ends (fun n => runLoop hang turn n t) r := by
  rw [← ends_succ_iff]
  apply eventually_congr
  filter_upwards [h] with n hn
  rw [runLoop, hn]
  rfl

lemma Visits.ends_iff (h : Visits turn s t) :
    Ends (fun n => runLoop hang turn n s) r ↔ Ends (fun n => runLoop hang turn n t) r := by
  induction h with
  | start => rfl
  | turn _ he ih => exact ih.trans (runLoop_inl he)

lemma Visits.turn_ok (h : Visits turn s t) (he : Ends (fun n => runLoop hang turn n s) r) :
    ∃ n x, turn n t = .ok x := by
  obtain ⟨n, hn⟩ := (ends_succ_iff.mpr (h.ends_iff.mp he)).exists
  obtain ⟨x, hx, -⟩ := bind_eq_ok.mp hn
  exact ⟨n, x, hx⟩

section

variable (hm : ∀ s, FuelMono (fun n => turn n s))

include hm

lemma runLoop_below {m : Nat} (h : n ≤ m) (s : σ) : Below (runLoop hang turn n s) (runLoop hang turn m s) := by
  induction n generalizing m s with
  | zero => exact below_error _ _
  | succ n ih =>
    obtain ⟨k, rfl⟩ : ∃ k, m = k + 1 := ⟨m - 1, by omega⟩
    apply Below.bind (hm s (by omega))
    rintro (s' | r)
    · exact ih (by omega) s'
    · exact .refl _

lemma runLoop_ends_of_ok (h : runLoop hang turn n s = .ok r) : Ends (fun n => runLoop hang turn n s) r :=
  FuelMono.ends (fun _ _ hnm => runLoop_below hm hnm s) h

lemma exists_leaves (h : runLoop hang turn n s = .ok r) :
    ∃ t, Visits turn s t ∧ Ends (fun n => turn n t) (.inr r) := by
  induction n generalizing s with
  | zero => cases h
  | succ n ih =>
    obtain ⟨x, hx, h⟩ := bind_eq_ok.mp h
    have hends : Ends (fun n => turn n s) x := (hm s).ends hx
    cases x with
    | inl u =>
      obtain ⟨t, ht, hl⟩ := ih h
      exact ⟨t, (Visits.turn .start hends).trans ht, hl⟩
    | inr r' =>
      cases h
      exact ⟨s, .start, hends⟩

lemma runLoop_ends_iff :
    Ends (fun n => runLoop hang turn n s) r ↔ ∃ t, Visits turn s t ∧ Ends (fun n => turn n t) (.inr r) := by
  constructor
  · intro h
    obtain ⟨n, hn⟩ := h.exists
    exact exists_leaves hm hn
  rintro ⟨t, ht, hl⟩
  exact ht.ends_iff.mpr (runLoop_inr hl)

end

lemma exists_leaves_of_measure (μ : σ → Nat) (s : σ)
    (h : ∀ t, Visits turn s t → ∃ x, Ends (fun n => turn n t) x ∧ ∀ u, x = .inl u → μ u < μ t) :
    ∃ t r, Visits turn s t ∧ Ends (fun n => turn n t) (.inr r) := by
  induction hs : μ s using Nat.strong_induction_on generalizing s with
  | _ k ih =>
    obtain ⟨x, hx, hμ⟩ := h s .start
    cases x with
    | inl u =>
      have hv : Visits turn s u := .turn .start hx
      obtain ⟨t, r, ht, hl⟩ := ih (μ u) (hs ▸ hμ u rfl) u (fun t ht => h t (hv.trans ht)) rfl
      exact ⟨t, r, hv.trans ht, hl⟩
    | inr r => exact ⟨s, r, .start, hx⟩

lemma Visits.keeps {P : σ → Prop} (h : Visits turn s t) (hs : P s)
    (hstep : ∀ t u, Visits turn s t → P t → Ends (fun n => turn n t) (.inl u) → P u) : P t := by
  induction h with
  | start => exact hs
  | turn hv he ih => exact hstep _ _ hv ih he

lemma visits_inl (h : Ends (fun n => turn n s) (.inl t)) {u : σ} : Visits turn s u ↔ u = s ∨ Visits turn t u := by
  constructor
  · intro hu
    induction hu with
    | start => exact .inl rfl
    | turn hv he ih =>
      right
      obtain rfl | hv' := ih
      · cases h.unique he
        exact .start
      · exact .turn hv' he
  rintro (rfl | hu)
  · exact .start
  · exact (Visits.turn .start h).trans hu

lemma visits_inr (h : Ends (fun n => turn n s) (.inr r)) {u : σ} : Visits turn s u ↔ u = s := by
  constructor
  · intro hu
    induction hu with
    | start => rfl
    | turn hv he ih =>
      subst ih
      cases h.unique he
  rintro rfl
  exact .start

lemma runLoop_yields {P : σ → Prop} {Q : ρ → Prop}
    (hturn : ∀ n s, P s → Yields (fun x => Sum.elim P Q x) (turn n s)) (n : Nat) (hs : P s) :
    Yields Q (runLoop hang turn n s) := by
  induction n generalizing s with
  | zero => exact yields_error _ _
  | succ n ih =>
    refine .bind (hturn n s hs) ?_
    rintro (t | r) hx
    · exact ih hx
    · exact yields_ok hx

end Loop

section Same

variable {ε : Type u} {σ τ ρ : Type v}

inductive SameTurn (R : σ → τ → Prop) : Except ε (σ ⊕ ρ) → Except ε (τ ⊕ ρ) → Prop
  | error (e : ε) : SameTurn R (.error e) (.error e)
  | inl {s : σ} {t : τ} (h : R s t) : SameTurn R (.ok (.inl s)) (.ok (.inl t))
  | inr (r : ρ) : SameTurn R (.ok (.inr r)) (.ok (.inr r))

lemma runLoop_same {hang : ε} {turn : Nat → σ → Except ε (σ ⊕ ρ)} {turn' : Nat → τ → Except ε (τ ⊕ ρ)}
    {R : σ → τ → Prop} (h : ∀ n s t, R s t → SameTurn R (turn n s) (turn' n t)) (n : Nat) {s : σ} {t : τ}
    (hst : R s t) : runLoop hang turn n s = runLoop hang turn' n t := by
  induction n generalizing s t with
  | zero => rfl
  | succ n ih =>
    rw [runLoop, runLoop]
    have hturn := h n s t hst
    generalize turn n s = x at hturn ⊢
    generalize turn' n t = y at hturn ⊢
    cases hturn with
    | error e => rfl
    | inl hnext => exact ih hnext
    | inr r => rfl

end Same

end Vde
