import Vde.Proofs.OlsrFuel

/-!
# OLSR: the tree

The shape of the tree is the list of the children of each entry. In every tree the walks end: the search
for an address goes down, the search for the next hop goes up until it comes to an entry whose metric is
at most one.
-/

namespace Vde

open List Function

def Siblings (h : OlsrHeap) : Option Nat → List Nat → Prop
  | p, [] => p = none
  | p, q :: l => p = some q ∧ ∃ e, h q = some e ∧ Siblings h e.next l

/-- The entries form a tree: `kids none` are the local interfaces, `kids (some p)` the children of `p`, and
no entry is deeper than `bound`. -/
structure TreeShape (s : Olsr) (kids : Option Nat → List Nat) (depth : Nat → Nat) (bound : Nat) : Prop where
  roots : Siblings s.entries s.localInterfaces (kids none)
  child : ∀ k, ∀ p ∈ kids k, ∃ e, s.entries p = some e ∧ e.gateway = k ∧
    Siblings s.entries e.children (kids (some p))
  nodup : ∀ k, (kids k).Nodup
  rooted : ∀ p, kids (some p) ≠ [] → ∃ k, p ∈ kids k
  root : ∀ p ∈ kids none, ∀ e, s.entries p = some e → e.metric = 0 ∧ e.nlq = 255
  deeper : ∀ p, ∀ q ∈ kids (some p), depth q = depth p + 1
  bounded : ∀ k, ∀ p ∈ kids k, depth p ≤ bound
  fresh : ∀ p, s.mallocs ≤ p → s.entries p = none

def Olsr.IsTree (s : Olsr) : Prop := ∃ kids depth bound, TreeShape s kids depth bound

/-- `get_next_hop` from `p` looks at `x`. -/
inductive Passes (h : OlsrHeap) (x : Nat) : Nat → Prop
  | here : Passes h x x
  | up {p q : Nat} {e : OlsrEntry} : h p = some e → 1 < e.metric.toNat → e.gateway = some q → Passes h x q →
      Passes h x p

inductive HasHop (h : OlsrHeap) : Nat → Prop
  | near {p : Nat} {e : OlsrEntry} : h p = some e → e.metric.toNat ≤ 1 → HasHop h p
  | up {p q : Nat} {e : OlsrEntry} : h p = some e → 1 < e.metric.toNat → e.gateway = some q → HasHop h q →
      HasHop h p

def SameHops (h h' : OlsrHeap) : Prop :=
  ∀ p e, h p = some e → ∃ e', h' p = some e' ∧ e'.metric = e.metric ∧ e'.gateway = e.gateway

variable {l : List Nat} {start : Option Nat}

section Heap

variable {s : Olsr} {h h' : OlsrHeap} {p : Nat} {e : OlsrEntry}

lemma read_eq (hp : h p = some e) : h.read p = .ok e := by
  rw [OlsrHeap.read, hp]

lemma read_ok (hp : h.read p = .ok e) : h p = some e := by
  unfold OlsrHeap.read at hp
  split at hp
  · next e' he =>
    cases hp
    exact he
  · cases hp

lemma modify_eq (hp : s.entries p = some e) (f : OlsrEntry → OlsrEntry) :
    s.modify p f = .ok { s with entries := update s.entries p (some (f e)) } := by
  rw [Olsr.modify, read_eq hp]
  rfl

lemma modify_ok {f : OlsrEntry → OlsrEntry} {s' : Olsr} (hs : s.modify p f = .ok s') :
    ∃ e, s.entries p = some e ∧ s' = { s with entries := update s.entries p (some (f e)) } := by
  obtain ⟨e, he, hs⟩ := bind_eq_ok.mp hs
  cases hs
  exact ⟨e, read_ok he, rfl⟩

lemma Siblings.congr (hl : Siblings h start l)
    (hh : ∀ q ∈ l, ∀ e, h q = some e → ∃ e', h' q = some e' ∧ e'.next = e.next) : Siblings h' start l := by
  induction l generalizing start with
  | nil => exact hl
  | cons q l ih =>
    obtain ⟨hstart, e, he, hrest⟩ := hl
    obtain ⟨e', he', hnext⟩ := hh q mem_cons_self e he
    refine ⟨hstart, e', he', ?_⟩
    rw [hnext]
    exact ih hrest (fun r hr => hh r (mem_cons_of_mem q hr))

lemma SameHops.trans {h'' : OlsrHeap} (h₁ : SameHops h h') (h₂ : SameHops h' h'') : SameHops h h'' := by
  intro p e he
  obtain ⟨e', he', hm', hg'⟩ := h₁ p e he
  obtain ⟨e'', he'', hm'', hg''⟩ := h₂ p e' he'
  exact ⟨e'', he'', hm''.trans hm', hg''.trans hg'⟩

lemma sameHops_update {f : OlsrEntry → OlsrEntry} (hp : h p = some e) (hm : (f e).metric = e.metric)
    (hg : (f e).gateway = e.gateway) : SameHops h (update h p (some (f e))) := by
  intro q eq hq
  by_cases hqp : q = p
  · subst hqp
    rw [hp] at hq
    cases hq
    exact ⟨f e, update_self _ _ _, hm, hg⟩
  · exact ⟨eq, by rw [update_of_ne hqp, hq], rfl, rfl⟩

end Heap

variable {x : Nat}

section Walks

variable {h h' : OlsrHeap}

lemma ethentryLoop_ends (vif : Option Nat) (hl : Siblings h start l) :
    ∃ res, Ends (fun n => ethentryLoop h vif n start) res ∧ ∀ p, res = some p → p ∈ l := by
  induction l generalizing start with
  | nil =>
    cases hl
    exact ⟨none, ends_succ_iff.mp (ends_of_forall (fun _ => rfl)), by simp⟩
  | cons q l ih =>
    obtain ⟨rfl, e, he, hrest⟩ := hl
    obtain ⟨res, hres, hmem⟩ := ih hrest
    by_cases hif : e.iface = vif
    · refine ⟨some q, ends_succ_iff.mp (ends_of_forall (fun n => ?_)), by simp⟩
      simp [ethentryLoop, read_eq he, hif]
    refine ⟨res, ends_succ_iff.mp ?_, fun p hp => mem_cons_of_mem q (hmem p hp)⟩
    filter_upwards [hres] with n hn
    rw [ethentryLoop, read_eq he]
    simpa [hif] using hn

lemma findPrev_ends (r : Nat) (prev : Option Nat) {l₁ l₂ : List Nat} (hl : Siblings h start (l₁ ++ r :: l₂))
    (hr : r ∉ l₁) : Ends (fun n => findPrev h r n prev start) (some (l₁.getLast?.or prev)) := by
  induction l₁ generalizing prev start with
  | nil =>
    obtain ⟨rfl, -⟩ := hl
    exact ends_succ_iff.mp (ends_of_forall (fun n => by simp [findPrev]))
  | cons q l₁ ih =>
    obtain ⟨rfl, e, he, hrest⟩ := hl
    obtain ⟨hq, hr⟩ := not_or.mp (mt mem_cons.mpr hr)
    have hih := ih (some q) hrest hr
    apply ends_succ_iff.mp
    filter_upwards [hih] with n hn
    rw [findPrev, if_neg (Ne.symm hq), read_eq he]
    rw [getLast?_cons]
    cases hlast : l₁.getLast? with
    | none =>
      rw [hlast] at hn
      simpa using hn
    | some x =>
      rw [hlast] at hn
      simpa using hn

lemma HasHop.ends {p : Nat} (hp : HasHop h p) :
    ∃ q e, Ends (fun n => getNextHop h n (some p)) (some q) ∧ h q = some e := by
  induction hp with
  | @near p e he hm =>
    refine ⟨p, e, ends_succ_iff.mp (ends_of_forall (fun n => ?_)), he⟩
    simp [getNextHop, read_eq he, hm]
  | @up p q e he hm hg _ ih =>
    obtain ⟨x, ex, hx, hex⟩ := ih
    refine ⟨x, ex, ends_succ_iff.mp ?_, hex⟩
    filter_upwards [hx] with n hn
    rw [getNextHop, read_eq he]
    simpa [show ¬e.metric.toNat ≤ 1 by omega, hg] using hn

lemma HasHop.congr {p : Nat} (hp : HasHop h p)
    (hh : ∀ q, Passes h q p → ∀ e, h q = some e → ∃ e', h' q = some e' ∧
      (e'.metric = e.metric ∧ e'.gateway = e.gateway ∨ e'.metric.toNat ≤ 1)) : HasHop h' p := by
  induction hp with
  | @near p e he hm =>
    obtain ⟨e', he', ⟨hm', -⟩ | hnear⟩ := hh p .here e he
    · exact .near he' (by rw [hm']; exact hm)
    · exact .near he' hnear
  | @up p q e he hm hg _ ih =>
    obtain ⟨e', he', ⟨hm', hg'⟩ | hnear⟩ := hh p .here e he
    · refine .up he' (by rw [hm']; exact hm) (hg'.trans hg) (ih ?_)
      intro x hpass
      exact hh x (.up he hm hg hpass)
    · exact .near he' hnear

lemma HasHop.same {p : Nat} (hp : HasHop h p) (hh : SameHops h h') : HasHop h' p := by
  apply hp.congr
  intro q _ e he
  obtain ⟨e', he', hsame⟩ := hh q e he
  exact ⟨e', he', .inl hsame⟩

lemma Passes.congr {p : Nat} (hp : Passes h x p)
    (hh : ∀ q, q ≠ x → ∀ e, h q = some e → ∃ e', h' q = some e' ∧ e'.metric = e.metric ∧ e'.gateway = e.gateway) :
    Passes h' x p := by
  induction hp with
  | here => exact .here
  | @up p q e he hm hg _ ih =>
    by_cases hpx : p = x
    · subst hpx
      exact .here
    obtain ⟨e', he', hm', hg'⟩ := hh p hpx e he
    exact .up he' (by rw [hm']; exact hm) (hg'.trans hg) ih

lemma Passes.getNextHop {p n : Nat} {res : Option Nat} (hp : Passes h x p)
    (hn : getNextHop h n (some p) = .ok res) : ∃ m ≤ n, getNextHop h m (some x) = .ok res := by
  induction hp generalizing n with
  | here => exact ⟨n, le_rfl, hn⟩
  | @up p q e he hm hg _ ih =>
    cases n with
    | zero => cases hn
    | succ n =>
      rw [Vde.getNextHop, read_eq he] at hn
      replace hn : Vde.getNextHop h n (some q) = .ok res := by
        simpa [show ¬e.metric.toNat ≤ 1 by omega, hg] using hn
      obtain ⟨m, hm, hx⟩ := ih hn
      exact ⟨m, by omega, hx⟩

lemma getNextHop_circle {q n : Nat} {e : OlsrEntry} {res : Option Nat} (he : h x = some e) (hm : 1 < e.metric.toNat)
    (hg : e.gateway = some q) (hq : Passes h x q) : getNextHop h n (some x) ≠ .ok res := by
  induction n using Nat.strong_induction_on with
  | _ n ih =>
    intro hn
    cases n with
    | zero => cases hn
    | succ n =>
      rw [getNextHop, read_eq he] at hn
      replace hn : getNextHop h n (some q) = .ok res := by
        simpa [show ¬e.metric.toNat ≤ 1 by omega, hg] using hn
      obtain ⟨m, hm, hx⟩ := hq.getNextHop hn
      exact ih m (by omega) hx

end Walks

section Shape

variable {s : Olsr} {kids : Option Nat → List Nat} {depth : Nat → Nat} {bound : Nat}

section

variable (T : TreeShape s kids depth bound)

include T

lemma TreeShape.congr {s' : Olsr}
    (hl : s'.localInterfaces = s.localInterfaces)
    (hh : ∀ k, ∀ p ∈ kids k, ∀ e, s.entries p = some e → ∃ e', s'.entries p = some e' ∧ e'.next = e.next ∧
      e'.children = e.children ∧ e'.gateway = e.gateway ∧ (k = none → e'.metric = e.metric ∧ e'.nlq = e.nlq))
    (hf : ∀ p, s'.mallocs ≤ p → s'.entries p = none) : TreeShape s' kids depth bound := by
  have hsib {k start} (h : Siblings s.entries start (kids k)) : Siblings s'.entries start (kids k) := by
    apply h.congr
    intro q hq e he
    obtain ⟨e', he', hnext, -⟩ := hh k q hq e he
    exact ⟨e', he', hnext⟩
  refine { T with roots := ?_, child := ?_, root := ?_, fresh := hf }
  · rw [hl]
    exact hsib T.roots
  · intro k p hp
    obtain ⟨e, he, hg, hc⟩ := T.child k p hp
    obtain ⟨e', he', -, hchildren, hgateway, -⟩ := hh k p hp e he
    refine ⟨e', he', hgateway.trans hg, ?_⟩
    rw [hchildren]
    exact hsib hc
  intro p hp e' he'
  obtain ⟨e, he, -, -⟩ := T.child none p hp
  obtain ⟨e'', he'', -, -, -, hroot⟩ := hh none p hp e he
  rw [he'] at he''
  cases he''
  obtain ⟨hm, hn⟩ := hroot rfl
  rw [hm, hn]
  exact T.root p hp e he

lemma getRouteByAddress_siblings (ip : BitVec 32) (b : Nat)
    (hl : Siblings s.entries start l) (hmem : ∀ p ∈ l, (∃ k, p ∈ kids k) ∧ bound - depth p < b) :
    ∃ res, Ends (fun n => getRouteByAddress s.entries ip n start) res ∧ ∀ p, res = some p → ∃ k, p ∈ kids k := by
  -- down the tree, and along each list of children
  induction b generalizing start l with
  | zero =>
    cases l with
    | nil =>
      cases hl
      exact ⟨none, ends_succ_iff.mp (ends_of_forall (fun _ => rfl)), by simp⟩
    | cons q l => exact absurd (hmem q mem_cons_self).2 (by omega)
  | succ b ihb =>
    induction l generalizing start with
    | nil =>
      cases hl
      exact ⟨none, ends_succ_iff.mp (ends_of_forall (fun _ => rfl)), by simp⟩
    | cons q l ihl =>
      obtain ⟨rfl, e, he, hrest⟩ := hl
      obtain ⟨⟨k, hk⟩, hq⟩ := hmem q mem_cons_self
      by_cases hd : e.destination = ip
      · refine ⟨some q, ends_succ_iff.mp (ends_of_forall (fun n => ?_)), ?_⟩
        · simp [getRouteByAddress, read_eq he, hd]
        rintro p ⟨⟩
        exact ⟨k, hk⟩
      obtain ⟨e', he', -, hkids⟩ := T.child k q hk
      rw [he] at he'
      cases he'
      obtain ⟨res, hres, hfound⟩ := ihb hkids (by
        intro p hp
        have hdeep := T.deeper q p hp
        have hbound := T.bounded _ p hp
        exact ⟨⟨_, hp⟩, by omega⟩)
      cases res with
      | some found =>
        refine ⟨some found, ends_succ_iff.mp ?_, hfound⟩
        filter_upwards [hres] with n hn
        rw [getRouteByAddress, read_eq he]
        simp [hd, hn]
      | none =>
        obtain ⟨res, hres', hfound'⟩ := ihl hrest (fun p hp => hmem p (mem_cons_of_mem q hp))
        refine ⟨res, ends_succ_iff.mp ?_, hfound'⟩
        filter_upwards [hres, hres'] with n hn hn'
        rw [getRouteByAddress, read_eq he]
        simp [hd, hn, hn']

lemma TreeShape.getRouteByAddress_ends (ip : BitVec 32) : ∃ res,
    Ends (fun n => getRouteByAddress s.entries ip n s.localInterfaces) res ∧ ∀ p, res = some p → ∃ k, p ∈ kids k :=
  getRouteByAddress_siblings T ip (bound + 1) T.roots (fun p hp => ⟨⟨none, hp⟩, by omega⟩)

lemma TreeShape.hasHop {k : Option Nat} {p : Nat} (hp : p ∈ kids k) : HasHop s.entries p := by
  induction hd : depth p using Nat.strong_induction_on generalizing k p with
  | _ d ih =>
    obtain ⟨e, he, hg, -⟩ := T.child k p hp
    by_cases hm : e.metric.toNat ≤ 1
    · exact .near he hm
    cases k with
    | none =>
      obtain ⟨hzero, -⟩ := T.root p hp e he
      rw [hzero] at hm
      simp at hm
    | some q =>
      obtain ⟨k, hk⟩ := T.rooted q (ne_nil_of_mem hp)
      have hdeep := T.deeper q p hp
      exact .up he (by omega) hg (ih (depth q) (by omega) hk rfl)

end

end Shape

end Vde
