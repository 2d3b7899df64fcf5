import Vde.Proofs.OlsrTree

/-!
# OLSR: taking entries out of the tree and putting them back

`olsr_route_del` frees the next child of an entry when it has taken out the first one, and then reads it. So
it returns exactly if no entry under the one that is deleted has two children; then nothing is freed, and
the entries under it are cut off from each other.
-/

namespace Vde

open List Function

inductive Thin (h : OlsrHeap) : Nat → Prop
  | leaf {r : Nat} {e : OlsrEntry} : h r = some e → e.children = none → Thin h r
  | link {r c : Nat} {e ec : OlsrEntry} : h r = some e → e.children = some c → h c = some ec → ec.next = none →
      Thin h c → Thin h r

def Line (kids : Option Nat → List Nat) : Nat → List Nat → Prop
  | r, [] => kids (some r) = []
  | r, c :: l => kids (some r) = [c] ∧ Line kids c l

def Branch (h : OlsrHeap) : Nat → List Nat → Prop
  | r, [] => ∃ e, h r = some e ∧ e.children = none
  | r, c :: l => ∃ e ec, h r = some e ∧ e.children = some c ∧ h c = some ec ∧ ec.next = none ∧
      ec.gateway = some r ∧ Branch h c l

structure Cut (s s' : Olsr) (ps : List Nat) : Prop where
  inside : ∀ p ∈ ps, s'.entries p = (s.entries p).map (fun e => { e with children := none })
  outside : ∀ p, p ∉ ps → s'.entries p = s.entries p
  localInterfaces : s'.localInterfaces = s.localInterfaces
  mallocs : s'.mallocs = s.mallocs

def cutLink (h : OlsrHeap) (g : Nat) (prev next : Option Nat) : OlsrHeap :=
  match prev with
  | none => update h g ((h g).map (fun e => { e with children := next }))
  | some q => update h q ((h q).map (fun e => { e with next := next }))

structure Unlinks (s s₁ : Olsr) (g : Nat) (prev next : Option Nat) : Prop where
  entries : s₁.entries = cutLink s.entries g prev next
  localInterfaces : s₁.localInterfaces = s.localInterfaces
  mallocs : s₁.mallocs = s.mallocs

variable {start : Option Nat} {p : Nat}

section Lists

variable {h : OlsrHeap} {r : Nat} {er : OlsrEntry}

lemma Siblings.mem {l : List Nat} (hl : Siblings h start l) {q : Nat} (hq : q ∈ l) : ∃ e, h q = some e := by
  induction l generalizing start with
  | nil => cases hq
  | cons x l ih =>
    obtain ⟨-, e, he, hrest⟩ := hl
    rcases mem_cons.mp hq with rfl | hq
    · exact ⟨e, he⟩
    · exact ih hrest hq

lemma cutLink_some (g : Nat) (prev next : Option Nat) {e : OlsrEntry} (he : h p = some e) :
    cutLink h g prev next p = some
      { e with
        next := if prev = some p then next else e.next
        children := if prev = none ∧ p = g then next else e.children } := by
  cases prev with
  | none =>
    by_cases hpg : p = g
    · subst hpg
      simp [cutLink, he]
    · simp [cutLink, he, hpg]
  | some q =>
    by_cases hpq : p = q
    · subst hpq
      simp [cutLink, he]
    · simp [cutLink, update_of_ne hpq, he, Ne.symm hpq]

lemma Siblings.unlink {l₁ l₂ : List Nat} (hl : Siblings h start (l₁ ++ r :: l₂))
    (hnd : (l₁ ++ r :: l₂).Nodup) (hr : h r = some er) (g : Nat) :
    Siblings (cutLink h g l₁.getLast? er.next) (if l₁ = [] then er.next else start) (l₁ ++ l₂) := by
  induction l₁ generalizing start with
  | nil =>
    obtain ⟨-, e, he, hrest⟩ := hl
    rw [hr] at he
    cases he
    -- only the `children` of `g` change
    apply hrest.congr
    intro q _ e he
    exact ⟨_, cutLink_some g none er.next he, rfl⟩
  | cons q l₁ ih =>
    obtain ⟨rfl, e, he, hrest⟩ := hl
    obtain ⟨hq, hnd⟩ := nodup_cons.mp hnd
    cases l₁ with
    | nil =>
      obtain ⟨hnext, e', he', hrest⟩ := hrest
      rw [hr] at he'
      cases he'
      refine ⟨rfl, _, cutLink_some g (some q) er.next he, ?_⟩
      rw [if_pos rfl]
      apply hrest.congr
      intro x hx ex hex
      refine ⟨_, cutLink_some g (some q) er.next hex, if_neg ?_⟩
      rintro ⟨⟩
      exact hq (by simp [hx])
    | cons q' l₁ =>
      have hlast : (q :: q' :: l₁).getLast? = (q' :: l₁).getLast? := getLast?_cons_cons
      have hne : (q' :: l₁).getLast? ≠ some q := by
        intro heq
        exact hq (mem_append_left _ (mem_of_getLast? heq))
      have hih := ih hrest hnd
      rw [if_neg (by simp)] at hih
      rw [hlast]
      refine ⟨rfl, _, cutLink_some g _ er.next he, ?_⟩
      rw [if_neg hne]
      exact hih

lemma Branch.congr {h' : OlsrHeap} {l : List Nat} (hb : Branch h r l) (hh : ∀ p ∈ r :: l, h' p = h p) :
    Branch h' r l := by
  induction l generalizing r with
  | nil =>
    obtain ⟨e, he, hc⟩ := hb
    exact ⟨e, by rw [hh r mem_cons_self, he], hc⟩
  | cons c l ih =>
    obtain ⟨e, ec, he, hc, hec, hnext, hgw, hb⟩ := hb
    refine ⟨e, ec, by rw [hh r mem_cons_self, he], hc, by rw [hh c (by simp), hec], hnext, hgw, ?_⟩
    exact ih hb (fun p hp => hh p (mem_cons_of_mem r hp))

lemma cutLink_none {g : Nat} {prev next : Option Nat} (hp : h p = none) : cutLink h g prev next p = none := by
  cases prev with
  | none =>
    by_cases hpg : p = g
    · subst hpg
      simp [cutLink, hp]
    · simp [cutLink, update_of_ne hpg, hp]
  | some q =>
    by_cases hpq : p = q
    · subst hpq
      simp [cutLink, hp]
    · simp [cutLink, update_of_ne hpq, hp]

lemma sameHops_cutLink (g : Nat) (prev next : Option Nat) : SameHops h (cutLink h g prev next) :=
  fun _ _ he => ⟨_, cutLink_some g prev next he, rfl, rfl⟩

lemma Cut.sameHops {s s' : Olsr} {ps : List Nat} (hc : Cut s s' ps) : SameHops s.entries s'.entries := by
  intro p e he
  by_cases hp : p ∈ ps
  · exact ⟨{ e with children := none }, by rw [hc.inside p hp, he]; rfl, rfl, rfl⟩
  · exact ⟨e, by rw [hc.outside p hp, he], rfl, rfl⟩

end Lists

section Del

variable {s : Olsr} {r g : Nat} {e eg : OlsrEntry} {l₁ l₂ : List Nat}

lemma olsrRouteDel_step (he : s.entries r = some e) (hg : e.gateway = some g) (heg : s.entries g = some eg)
    (hl : Siblings s.entries eg.children (l₁ ++ r :: l₂)) (hr : r ∉ l₁) : ∃ s₁, Unlinks s s₁ g l₁.getLast? e.next ∧
    (∀ n, Below (olsrRouteDel (n + 1) r s) (delChildren n r s₁)) ∧
    (∀ s', Ends (fun n => delChildren n r s₁) s' → Ends (fun n => olsrRouteDel n r s) s') := by
  let s₀ : Olsr := { s with myAnsn := if fresher s.freshAnsn s.myAnsn then s.freshAnsn + 1 else s.myAnsn }
  obtain ⟨s₁, hlink, h₁⟩ : ∃ s₁, delLink e l₁.getLast? s₀ = .ok s₁ ∧ Unlinks s s₁ g l₁.getLast? e.next := by
    cases hlast : l₁.getLast? with
    | none =>
      simp only [delLink, hg]
      rw [modify_eq (s := s₀.routeDel _ _) heg]
      refine ⟨_, rfl, ?_, rfl, rfl⟩
      simp [cutLink, Olsr.routeDel, heg, s₀]
    | some q =>
      obtain ⟨eq, heq⟩ := hl.mem (mem_append_left _ (mem_of_getLast? hlast))
      simp only [delLink, hg]
      rw [modify_eq (s := s₀.routeDel _ _) heq]
      refine ⟨_, rfl, ?_, rfl, rfl⟩
      simp [cutLink, Olsr.routeDel, heq, s₀]
  have hdel (n : Nat) : olsrRouteDel (n + 1) r s =
      findPrev s.entries r n none eg.children >>= fun res =>
        res.elim (pure s₀) (fun prev => delLink e prev s₀ >>= delChildren n r) := by
    simp only [olsrRouteDel, read_eq he, ok_bind, delList, hg, read_eq heg, pure_eq_ok]
    cases findPrev s.entries r n none eg.children with
    | error _ => rfl
    | ok res =>
      cases res with
      | none => rfl
      | some prev => rfl
  have hfind : Ends (fun n => findPrev s.entries r n none eg.children) (some l₁.getLast?) := by
    simpa using findPrev_ends r none hl hr
  refine ⟨s₁, h₁, ?_, ?_⟩
  · intro n a ha
    rw [hdel] at ha
    obtain ⟨res, hres, ha⟩ := bind_eq_ok.mp ha
    have hends : Ends (fun n => findPrev s.entries r n none eg.children) res :=
      FuelMono.ends (fun n m hnm => findPrev_below _ _ hnm _ _) hres
    cases hends.unique hfind
    simpa [hlink] using ha
  intro s' hends
  apply ends_succ_iff.mp
  filter_upwards [hends, hfind] with n hn hf
  rw [hdel, hf]
  simpa [hlink] using hn

lemma delChildren_ends {l : List Nat} (hb : Branch s.entries r l) (hnd : (r :: l).Nodup) :
    ∃ s', Ends (fun n => delChildren n r s) s' ∧ Cut s s' (r :: l) := by
  induction l generalizing s r with
  | nil =>
    obtain ⟨e, he, hc⟩ := hb
    refine ⟨s, ends_succ_iff.mp (ends_of_forall (fun n => ?_)), ?_, fun _ _ => rfl, rfl, rfl⟩
    · simp [delChildren, read_eq he, hc]
    intro p hp
    rw [mem_singleton.mp hp, he]
    cases e
    cases hc
    rfl
  | cons c l ih =>
    obtain ⟨e, ec, he, hc, hec, hnext, hgw, hb⟩ := hb
    obtain ⟨hr, hnd⟩ := nodup_cons.mp hnd
    have hlist : Siblings s.entries e.children ([] ++ c :: []) := ⟨hc, ec, hec, hnext⟩
    obtain ⟨s₁, hunlink, -, hdel⟩ := olsrRouteDel_step hec hgw he hlist not_mem_nil
    have hr₁ : s₁.entries r = some { e with children := none } := by
      simp [hunlink.entries, cutLink, he, hnext]
    have hother : ∀ p, p ≠ r → s₁.entries p = s.entries p := by
      intro p hp
      simp [hunlink.entries, cutLink, update_of_ne hp]
    obtain ⟨s₂, hends, hcut⟩ := ih (hb.congr (fun p hp => hother p (fun hpr => hr (hpr ▸ hp)))) hnd
    have hr₂ : s₂.entries r = some { e with children := none } := by
      rw [hcut.outside r hr, hr₁]
    refine ⟨s₂, ends_succ_iff.mp ?_, ?_, ?_, hcut.localInterfaces.trans hunlink.localInterfaces,
      hcut.mallocs.trans hunlink.mallocs⟩
    · have hend : Ends (fun n => delChildren n r s₂) s₂ :=
        ends_succ_iff.mp (ends_of_forall (fun n => by simp [delChildren, read_eq hr₂]))
      filter_upwards [hdel s₂ hends, hend] with n hn hlast
      rw [delChildren, read_eq he, ok_bind, hc]
      simp [hn, read_eq hr₂, Olsr.free, hlast]
    · intro p hp
      rcases mem_cons.mp hp with rfl | hp
      · rw [hr₂, he]
        rfl
      · rw [hcut.inside p hp, hother p (fun hpr => hr (hpr ▸ hp))]
    intro p hp
    obtain ⟨hpr, hpl⟩ := not_or.mp (mt mem_cons.mpr hp)
    rw [hcut.outside p hpl, hother p hpr]

lemma delChildren_freed {c n : Nat} {s' : Olsr} (he : s.entries r = some e) (hc : e.children = some c)
    (hfree : s.entries c = none) : delChildren n r s ≠ .ok s' := by
  intro hn
  cases n with
  | zero => cases hn
  | succ n =>
    rw [delChildren, read_eq he, ok_bind, hc] at hn
    obtain ⟨s₁, h₁, -⟩ := bind_eq_ok.mp hn
    cases n with
    | zero => cases h₁
    | succ n =>
      obtain ⟨ec, hec, -⟩ := bind_eq_ok.mp h₁
      rw [read_ok hec] at hfree
      cases hfree

end Del

section Shape

variable {s s' : Olsr} {kids : Option Nat → List Nat} {depth : Nat → Nat} {bound : Nat} {r : Nat}

section

variable (T : TreeShape s kids depth bound)

include T

lemma TreeShape.parent_unique {k k' : Option Nat} (h : p ∈ kids k) (h' : p ∈ kids k') : k = k' := by
  obtain ⟨e, he, hg, -⟩ := T.child k p h
  obtain ⟨e', he', hg', -⟩ := T.child k' p h'
  rw [he] at he'
  cases he'
  rw [← hg, ← hg']

lemma TreeShape.line_of_thin (h : Thin s.entries r) {k : Option Nat} (hr : r ∈ kids k) : ∃ l, Line kids r l := by
  induction h generalizing k with
  | @leaf r e he hc =>
    obtain ⟨e', he', -, hsib⟩ := T.child k r hr
    rw [he] at he'
    cases he'
    refine ⟨[], ?_⟩
    cases hkids : kids (some r) with
    | nil => exact hkids
    | cons c l =>
      rw [hkids, hc] at hsib
      cases hsib.1
  | @link r c e ec he hc hec hnext _ ih =>
    obtain ⟨e', he', -, hsib⟩ := T.child k r hr
    rw [he] at he'
    cases he'
    cases hkids : kids (some r) with
    | nil =>
      rw [hkids, hc] at hsib
      cases hsib
    | cons c' l =>
      rw [hkids, hc] at hsib
      obtain ⟨hcc, ec', hec', hrest⟩ := hsib
      cases hcc
      rw [hec] at hec'
      cases hec'
      rw [hnext] at hrest
      cases l with
      | nil =>
        obtain ⟨l, hl⟩ := ih (k := some r) (by simp [hkids])
        exact ⟨c :: l, hkids, hl⟩
      | cons c' l => cases hrest.1

lemma TreeShape.line_deeper {l : List Nat} (h : Line kids r l) :
    ∀ x ∈ l, depth r < depth x ∧ ∃ y ∈ r :: l, x ∈ kids (some y) := by
  induction l generalizing r with
  | nil => simp
  | cons c l ih =>
    obtain ⟨hkids, hline⟩ := h
    have hc : c ∈ kids (some r) := by simp [hkids]
    have hdeep := T.deeper r c hc
    intro x hx
    rcases mem_cons.mp hx with rfl | hx
    · exact ⟨by omega, r, mem_cons_self, hc⟩
    obtain ⟨hlt, y, hy, hxy⟩ := ih hline x hx
    exact ⟨by omega, y, mem_cons_of_mem r hy, hxy⟩

lemma TreeShape.line_nodup {l : List Nat} (h : Line kids r l) : (r :: l).Nodup := by
  induction l generalizing r with
  | nil => simp
  | cons c l ih =>
    refine nodup_cons.mpr ⟨?_, ih h.2⟩
    intro hr
    exact lt_irrefl _ (T.line_deeper h r hr).1

lemma TreeShape.branch_of_line {k : Option Nat} (hr : r ∈ kids k) {l : List Nat}
    (h : Line kids r l) : Branch s.entries r l := by
  induction l generalizing r k with
  | nil =>
    obtain ⟨e, he, -, hsib⟩ := T.child k r hr
    rw [show kids (some r) = [] from h] at hsib
    exact ⟨e, he, hsib⟩
  | cons c l ih =>
    obtain ⟨hkids, hline⟩ := h
    have hc : c ∈ kids (some r) := by simp [hkids]
    obtain ⟨e, he, -, hsib⟩ := T.child k r hr
    obtain ⟨ec, hec, hgw, -⟩ := T.child _ c hc
    rw [hkids] at hsib
    obtain ⟨hchildren, ec', hec', hnext⟩ := hsib
    rw [hec] at hec'
    cases hec'
    exact ⟨e, ec, he, hchildren, hec, hnext, hgw, ih hc hline⟩

end

def cutKids (kids : Option Nat → List Nat) (r : Nat) (l : List Nat) (k : Option Nat) : List Nat :=
  if k ∈ (r :: l).map some then [] else (kids k).erase r

lemma TreeShape.mem_cutKids (T : TreeShape s kids depth bound) {l : List Nat} (hline : Line kids r l)
    {k : Option Nat} (hp : p ∈ cutKids kids r l k) : p ∈ kids k ∧ p ∉ r :: l := by
  unfold cutKids at hp
  split at hp
  · cases hp
  next hk =>
  obtain ⟨hpr, hp⟩ := (T.nodup k).mem_erase_iff.mp hp
  refine ⟨hp, ?_⟩
  intro hmem
  rcases mem_cons.mp hmem with rfl | hmem
  · exact hpr rfl
  obtain ⟨-, y, hy, hpy⟩ := T.line_deeper hline p hmem
  cases T.parent_unique hp hpy
  exact hk (mem_map_of_mem hy)

lemma line_kids {l : List Nat} (h : Line kids r l) {y : Nat} (hy : y ∈ r :: l) (hp : p ∈ kids (some y)) :
    p ∈ l := by
  induction l generalizing r with
  | nil =>
    rw [mem_singleton.mp hy, show kids (some r) = [] from h] at hp
    exact hp
  | cons c l ih =>
    rcases mem_cons.mp hy with rfl | hy
    · rw [h.1] at hp
      exact mem_cons.mpr (.inl (mem_singleton.mp hp))
    · exact mem_cons_of_mem c (ih h.2 hy)

lemma cutKids_of_not_mem {l : List Nat} (hp : p ∉ r :: l) :
    cutKids kids r l (some p) = (kids (some p)).erase r := by
  rw [cutKids, if_neg]
  intro hmem
  obtain ⟨y, hy, hyp⟩ := mem_map.mp hmem
  cases hyp
  exact hp hy

structure TakenOut (s s₁ s' : Olsr) (kids : Option Nat → List Nat) (r g : Nat) (e : OlsrEntry) (l l₁ l₂ : List Nat) :
    Prop where
  list : kids (some g) = l₁ ++ r :: l₂
  line : Line kids r l
  entry : s.entries r = some e
  unlink : Unlinks s s₁ g l₁.getLast? e.next
  cut : Cut s₁ s' (r :: l)

section Cuts

variable {s₁ : Olsr} {g : Nat} {e : OlsrEntry} {l l₁ l₂ : List Nat} {k : Option Nat}

section

variable (h : TakenOut s s₁ s' kids r g e l l₁ l₂)

include h

lemma TakenOut.mem : r ∈ kids (some g) := by
  rw [h.list]
  simp

lemma TakenOut.nodup (T : TreeShape s kids depth bound) : (l₁ ++ r :: l₂).Nodup :=
  h.list ▸ T.nodup (some g)

lemma TakenOut.kept (T : TreeShape s kids depth bound)
    (hp : p ∈ cutKids kids r l k) : s'.entries p = cutLink s.entries g l₁.getLast? e.next p := by
  rw [h.cut.outside p (T.mem_cutKids h.line hp).2, h.unlink.entries]

lemma TakenOut.siblings (T : TreeShape s kids depth bound) (hk : k ≠ some g) (hmem : k ∉ (r :: l).map some)
    (hl : Siblings s.entries start (kids k)) : Siblings s'.entries start (cutKids kids r l k) := by
  have hsame : cutKids kids r l k = kids k := by
    rw [cutKids, if_neg hmem]
    exact erase_of_not_mem (fun hrk => hk (T.parent_unique hrk h.mem))
  rw [← hsame] at hl
  apply hl.congr
  intro q hq eq heq
  have hne : l₁.getLast? ≠ some q := by
    intro hlast
    have hq' : q ∈ kids (some g) := by
      rw [h.list]
      exact mem_append_left _ (mem_of_getLast? hlast)
    exact hk (T.parent_unique (T.mem_cutKids h.line hq).1 hq')
  exact ⟨_, (h.kept T hq).trans (cutLink_some g _ e.next heq), if_neg hne⟩

lemma TakenOut.gateway (T : TreeShape s kids depth bound)
    (hg : g ∉ r :: l) (hl : Siblings s.entries start (kids (some g))) :
    Siblings s'.entries (if l₁ = [] then e.next else start) (cutKids kids r l (some g)) := by
  have hnd := h.nodup T
  have hrl₁ : r ∉ l₁ := fun hr => (nodup_append.mp hnd).2.2 r hr r mem_cons_self rfl
  have herase : cutKids kids r l (some g) = l₁ ++ l₂ := by
    rw [cutKids_of_not_mem hg, h.list, erase_append_right _ hrl₁, erase_cons_head]
  rw [h.list] at hl
  rw [herase]
  apply (hl.unlink hnd h.entry g).congr
  intro q hq eq heq
  rw [← herase] at hq
  exact ⟨eq, (h.kept T hq).trans heq, rfl⟩

lemma TakenOut.rooted (T : TreeShape s kids depth bound)
    (hp : cutKids kids r l (some p) ≠ []) : ∃ k, p ∈ cutKids kids r l k := by
  have hpl : p ∉ r :: l := by
    intro hpl
    rw [cutKids, if_pos (mem_map_of_mem hpl)] at hp
    exact hp rfl
  rw [cutKids_of_not_mem hpl] at hp
  obtain ⟨k, hk⟩ := T.rooted p (fun hnil => hp (by rw [hnil]; rfl))
  refine ⟨k, ?_⟩
  rw [cutKids, if_neg]
  · exact (T.nodup k).mem_erase_iff.mpr ⟨fun hpr => hpl (hpr ▸ mem_cons_self), hk⟩
  intro hmem
  obtain ⟨y, hy, rfl⟩ := mem_map.mp hmem
  exact hpl (mem_cons_of_mem r (line_kids h.line hy hk))

lemma TakenOut.tree (T : TreeShape s kids depth bound) : TreeShape s' (cutKids kids r l) depth bound := by
  refine { roots := ?_, child := ?_, nodup := ?_, rooted := fun p hp => h.rooted T hp, root := ?_, deeper := ?_
           bounded := ?_, fresh := ?_ }
  · rw [h.cut.localInterfaces, h.unlink.localInterfaces]
    exact h.siblings T (by simp) (by simp) T.roots
  · intro k p hp
    obtain ⟨hp', hpl⟩ := T.mem_cutKids h.line hp
    obtain ⟨ep, hep, hgw, hch⟩ := T.child k p hp'
    refine ⟨_, (h.kept T hp).trans (cutLink_some g _ e.next hep), hgw, ?_⟩
    show Siblings _ (if l₁.getLast? = none ∧ p = g then e.next else ep.children) _
    by_cases hpg : p = g
    · subst hpg
      simpa using h.gateway T hpl hch
    rw [if_neg (fun hg => hpg hg.2)]
    exact h.siblings T (by simpa using hpg) (by simpa using hpl) hch
  · intro k
    unfold cutKids
    split
    · exact nodup_nil
    · exact (T.nodup k).erase r
  · intro p hp e' he'
    obtain ⟨hp', -⟩ := T.mem_cutKids h.line hp
    obtain ⟨ep, hep, -, -⟩ := T.child none p hp'
    rw [h.kept T hp, cutLink_some g _ e.next hep] at he'
    cases he'
    exact T.root p hp' ep hep
  · intro p q hq
    exact T.deeper p q (T.mem_cutKids h.line hq).1
  · intro k p hp
    exact T.bounded k p (T.mem_cutKids h.line hp).1
  · intro p hp
    rw [h.cut.mallocs, h.unlink.mallocs] at hp
    have hp₁ : s₁.entries p = none := by
      rw [h.unlink.entries]
      exact cutLink_none (T.fresh p hp)
    by_cases hpl : p ∈ r :: l
    · rw [h.cut.inside p hpl, hp₁]
      rfl
    · rw [h.cut.outside p hpl, hp₁]

end

end Cuts

lemma TreeShape.unlink_below (T : TreeShape s kids depth bound) {g : Nat} {l₁ l₂ : List Nat} {s₁ : Olsr}
    {next : Option Nat} (hkids : kids (some g) = l₁ ++ r :: l₂) (hunlink : Unlinks s s₁ g l₁.getLast? next)
    {x : Nat} (hx : x = r ∨ depth r < depth x) : s₁.entries x = s.entries x := by
  have hdr := T.deeper g r (by simp [hkids])
  have hnd : (l₁ ++ r :: l₂).Nodup := hkids ▸ T.nodup (some g)
  rw [hunlink.entries]
  cases hlast : l₁.getLast? with
  | none =>
    have hxg : x ≠ g := by
      rintro rfl
      rcases hx with rfl | hx <;> omega
    simp [cutLink, update_of_ne hxg]
  | some q =>
    have hq : q ∈ l₁ := mem_of_getLast? hlast
    have hdq := T.deeper g q (by simp [hkids, hq])
    have hxq : x ≠ q := by
      rintro rfl
      rcases hx with rfl | hx
      · exact (nodup_append.mp hnd).2.2 x hq x mem_cons_self rfl
      · omega
    simp [cutLink, update_of_ne hxq]

lemma TreeShape.del_step (T : TreeShape s kids depth bound) {g : Nat} (hr : r ∈ kids (some g)) : ∃ e l₁ l₂ s₁,
    s.entries r = some e ∧ kids (some g) = l₁ ++ r :: l₂ ∧ Unlinks s s₁ g l₁.getLast? e.next ∧
    (∀ n, Below (olsrRouteDel (n + 1) r s) (delChildren n r s₁)) ∧
    (∀ s', Ends (fun n => delChildren n r s₁) s' → Ends (fun n => olsrRouteDel n r s) s') := by
  obtain ⟨k, hg⟩ := T.rooted g (ne_nil_of_mem hr)
  obtain ⟨eg, heg, -, hsib⟩ := T.child k g hg
  obtain ⟨e, he, hgw, -⟩ := T.child _ r hr
  obtain ⟨l₁, l₂, hkids⟩ := append_of_mem hr
  have hnd : (l₁ ++ r :: l₂).Nodup := hkids ▸ T.nodup (some g)
  have hrl₁ : r ∉ l₁ := fun h => (nodup_append.mp hnd).2.2 r h r mem_cons_self rfl
  rw [hkids] at hsib
  obtain ⟨s₁, h₁⟩ := olsrRouteDel_step he hgw heg hsib hrl₁
  exact ⟨e, l₁, l₂, s₁, he, hkids, h₁⟩

lemma TreeShape.branch_of_same (T : TreeShape s kids depth bound) {k : Option Nat} (hr : r ∈ kids k) {l : List Nat}
    (hline : Line kids r l) {s₁ : Olsr} (hsame : ∀ x, x = r ∨ depth r < depth x → s₁.entries x = s.entries x) :
    Branch s₁.entries r l := by
  apply (T.branch_of_line hr hline).congr
  intro p hp
  rcases mem_cons.mp hp with rfl | hp
  · exact hsame p (.inl rfl)
  · exact hsame p (.inr (T.line_deeper hline p hp).1)

structure Removed (s s' : Olsr) (r : Nat) : Prop where
  tree : ∃ kids depth bound, TreeShape s' kids depth bound ∧ ∀ k, r ∉ kids k
  hops : SameHops s.entries s'.entries
  leaf : ∃ e, s'.entries r = some e ∧ e.children = none

section

variable (T : TreeShape s kids depth bound)

include T

lemma TreeShape.del_ends {g : Nat} (hr : r ∈ kids (some g))
    (hthin : Thin s.entries r) : ∃ s', Ends (fun n => olsrRouteDel n r s) s' ∧ Removed s s' r := by
  obtain ⟨e, l₁, l₂, s₁, he, hkids, hunlink, -, hdel⟩ := T.del_step hr
  obtain ⟨l, hline⟩ := T.line_of_thin hthin hr
  have hbranch : Branch s₁.entries r l :=
    T.branch_of_same hr hline (fun x hx => T.unlink_below hkids hunlink hx)
  obtain ⟨s', hends, hcut⟩ := delChildren_ends hbranch (T.line_nodup hline)
  refine ⟨s', hdel s' hends, ?_, ?_, ?_⟩
  · have hout : TakenOut s s₁ s' kids r g e l l₁ l₂ := ⟨hkids, hline, he, hunlink, hcut⟩
    refine ⟨_, _, _, hout.tree T, ?_⟩
    intro k hk
    exact (T.mem_cutKids hline hk).2 mem_cons_self
  · have hhops : SameHops s.entries s₁.entries := by
      rw [hunlink.entries]
      exact sameHops_cutLink g _ _
    exact hhops.trans hcut.sameHops
  obtain ⟨e₁, he₁⟩ : ∃ e₁, s₁.entries r = some e₁ := by
    rw [hunlink.entries]
    exact ⟨_, cutLink_some g _ e.next he⟩
  exact ⟨{ e₁ with children := none }, by rw [hcut.inside r mem_cons_self, he₁]; rfl, rfl⟩

lemma TreeShape.delChildren_above {k : Option Nat} (hr : r ∈ kids k)
    (hthin : Thin s.entries r) {s₁ s₂ : Olsr} {n : Nat} (hn : delChildren n r s₁ = .ok s₂)
    (hsame : ∀ x, x = r ∨ depth r < depth x → s₁.entries x = s.entries x) {x : Nat} (hx : depth x < depth r) :
    s₂.entries x = s₁.entries x := by
  obtain ⟨l, hline⟩ := T.line_of_thin hthin hr
  obtain ⟨s₂', hends, hcut⟩ := delChildren_ends (T.branch_of_same hr hline hsame) (T.line_nodup hline)
  have hends₂ : Ends (fun n => delChildren n r s₁) s₂ := FuelMono.ends (fun n m h => (del_below h _ _).2) hn
  cases hends.unique hends₂
  apply hcut.outside
  intro hxl
  rcases mem_cons.mp hxl with rfl | hxl
  · omega
  have hlt := (T.line_deeper hline x hxl).1
  omega

lemma TreeShape.thin_of_delChildren {k : Option Nat} (hr : r ∈ kids k)
    {s₁ s₂ : Olsr} {n : Nat} (hn : delChildren n r s₁ = .ok s₂)
    (hsame : ∀ x, x = r ∨ depth r < depth x → s₁.entries x = s.entries x) : Thin s.entries r := by
  induction n using Nat.strong_induction_on generalizing r k s₁ s₂ with
  | _ n ih =>
    obtain ⟨e, he, -, hsib⟩ := T.child k r hr
    have he₁ : s₁.entries r = some e := by rw [hsame r (.inl rfl), he]
    cases n with
    | zero => cases hn
    | succ n =>
      rw [delChildren, read_eq he₁, ok_bind] at hn
      cases hkids : kids (some r) with
      | nil =>
        rw [hkids] at hsib
        exact .leaf he hsib
      | cons c cs =>
        have hbelow : ∀ x ∈ c :: cs, depth r < depth x := by
          intro x hx
          have hdx := T.deeper r x (hkids ▸ hx)
          omega
        have hc : c ∈ kids (some r) := by simp [hkids]
        obtain ⟨ec, hec, hgw, -⟩ := T.child _ c hc
        have hdc := hbelow c mem_cons_self
        rw [hkids] at hsib
        have hlist : Siblings s₁.entries e.children ([] ++ c :: cs) := by
          apply hsib.congr
          intro q hq eq heq
          exact ⟨eq, by rw [hsame q (.inr (hbelow q hq)), heq], rfl⟩
        have hec₁ : s₁.entries c = some ec := by rw [hsame c (.inr hdc), hec]
        rw [hsib.1] at hn
        obtain ⟨s₃, h₃, hn⟩ := bind_eq_ok.mp hn
        obtain ⟨e₃, he₃, hn⟩ := bind_eq_ok.mp hn
        obtain ⟨s₄, h₄, hn⟩ := bind_eq_ok.mp hn
        cases n with
        | zero => cases h₃
        | succ n =>
          obtain ⟨s₁', hunlink, hstep, -⟩ := olsrRouteDel_step hec₁ hgw he₁ hlist not_mem_nil
          have hdel : delChildren n c s₁' = .ok s₃ := hstep n s₃ h₃
          have hsame' : ∀ x, x = c ∨ depth c < depth x → s₁'.entries x = s.entries x := by
            intro x hx
            have hdx : depth r < depth x := by
              rcases hx with rfl | hx <;> omega
            have hxr : x ≠ r := by
              rintro rfl
              omega
            rw [hunlink.entries, ← hsame x (.inr hdx)]
            simp [cutLink, update_of_ne hxr]
          have hthin : Thin s.entries c := ih n (by omega) hc hdel hsame'
          -- so the call for the first child has only cut off the line under it
          have hr₃ : s₃.entries r = some { e with children := ec.next } := by
            rw [T.delChildren_above hc hthin hdel hsame' hdc, hunlink.entries]
            simp [cutLink, he₁]
          rw [read_eq hr₃] at he₃
          cases he₃
          obtain ⟨-, ec', hec', hrest⟩ := hsib
          rw [hec] at hec'
          cases hec'
          cases cs with
          | nil => exact .link he hlist.1 hec hrest hthin
          | cons c₂ cs =>
            have hrc₂ : r ≠ c₂ := by
              rintro rfl
              exact lt_irrefl _ (hbelow r (by simp))
            rw [hrest.1] at h₄
            obtain ⟨-, -, h₄⟩ := bind_eq_ok.mp h₄
            cases h₄
            have hr₄ : update s₃.entries c₂ none r = some { e with children := ec.next } := by
              rw [update_of_ne hrc₂, hr₃]
            exact absurd hn (delChildren_freed hr₄ hrest.1 (update_self _ _ _))

lemma TreeShape.thin_of_del {g : Nat} (hr : r ∈ kids (some g)) {n : Nat}
    (hn : olsrRouteDel n r s = .ok s') : Thin s.entries r := by
  obtain ⟨e, l₁, l₂, s₁, -, hkids, hunlink, hstep, -⟩ := T.del_step hr
  cases n with
  | zero => cases hn
  | succ n => exact T.thin_of_delChildren hr (hstep n s' hn) (fun x hx => T.unlink_below hkids hunlink hx)

end

end Shape

section Add

variable {h : OlsrHeap} {s s' : Olsr} (alloc : Nat → Bool) {x g n : Nat} {e eg : OlsrEntry}

def linkUnder (h : OlsrHeap) (x g : Nat) : OlsrHeap :=
  let h₁ := update h x ((h x).map (fun e => { e with next := (h g).bind OlsrEntry.children }))
  update h₁ g ((h₁ g).map (fun e => { e with children := some x }))

lemma linkUnder_some {ep : OlsrEntry} (hp : h p = some ep) :
    linkUnder h x g p = some
      { ep with
        next := if p = x then (h g).bind OlsrEntry.children else ep.next
        children := if p = g then some x else ep.children } := by
  by_cases hpg : p = g
  · subst hpg
    by_cases hpx : p = x
    · subst hpx
      simp [linkUnder, hp]
    · simp [linkUnder, hp, hpx]
  by_cases hpx : p = x
  · subst hpx
    simp [linkUnder, hp, hpg]
  · simp [linkUnder, hp, hpg, hpx]

lemma linkUnder_none (hp : h p = none) : linkUnder h x g p = none := by
  by_cases hpg : p = g
  · subst hpg
    by_cases hpx : p = x
    · subst hpx
      simp [linkUnder, hp]
    · simp [linkUnder, hp, hpx]
  by_cases hpx : p = x
  · subst hpx
    simp [linkUnder, hp, hpg]
  · simp [linkUnder, hp, hpg, hpx]

lemma sameHops_linkUnder (x g : Nat) : SameHops h (linkUnder h x g) :=
  fun _ _ hp => ⟨_, linkUnder_some hp, rfl, rfl⟩

def added (h : OlsrHeap) (x g : Nat) : OlsrHeap := fun p =>
  (linkUnder h x g p).map (fun e => { e with linkType := if p = x then OLSRLINK_MPR else e.linkType })

lemma added_some {ep : OlsrEntry} (hp : h p = some ep) :
    added h x g p = some
      { ep with
        next := if p = x then (h g).bind OlsrEntry.children else ep.next
        children := if p = g then some x else ep.children
        linkType := if p = x then OLSRLINK_MPR else ep.linkType } := by
  rw [added, linkUnder_some hp]
  rfl

lemma added_none (hp : h p = none) : added h x g p = none := by
  rw [added, linkUnder_none hp]
  rfl

lemma sameHops_added (x g : Nat) : SameHops h (added h x g) := fun _ _ hp => ⟨_, added_some hp, rfl, rfl⟩

section

variable (hx : s.entries x = some e) (hg : e.gateway = some g) (heg : s.entries g = some eg)

include hx hg heg

lemma olsrRouteAdd_link : ∃ s₁, s₁.entries = linkUnder s.entries x g ∧ s₁.localInterfaces = s.localInterfaces ∧
    s₁.mallocs = s.mallocs ∧ ∀ n, olsrRouteAdd alloc n x s = addRoute alloc n x s₁ := by
  let s₀ : Olsr := { s with myAnsn := if fresher s.freshAnsn s.myAnsn then s.freshAnsn + 1 else s.myAnsn + 1 }
  refine ⟨{ s₀ with entries := linkUnder s.entries x g }, rfl, rfl, rfl, fun n => ?_⟩
  simp only [olsrRouteAdd, read_eq hx, ok_bind, hg, addToGateway, read_eq heg]
  rw [modify_eq (s := s₀) hx, ok_bind]
  by_cases hgx : g = x
  · subst hgx
    rw [hx] at heg
    cases heg
    rw [modify_eq (update_self _ _ _), ok_bind]
    simp [linkUnder, hx, s₀]
  rw [modify_eq (e := eg) (by simpa [update_of_ne hgx] using heg), ok_bind]
  simp [linkUnder, hx, heg, hgx, s₀]

lemma olsrRouteAdd_ends (hhop : HasHop s.entries x) : ∃ s', Ends (fun n => olsrRouteAdd alloc n x s) s' ∧
    s'.entries = added s.entries x g ∧ s'.localInterfaces = s.localInterfaces ∧ s'.mallocs = s.mallocs + 1 := by
  obtain ⟨s₁, hentries, hlocal, hmallocs, hadd⟩ := olsrRouteAdd_link alloc hx hg heg
  obtain ⟨q, eq, hends, hq⟩ := (hhop.same (sameHops_linkUnder x g)).ends
  rw [← hentries] at hends hq
  have hx₁ := linkUnder_some (x := x) (g := g) hx
  rw [← hentries] at hx₁
  refine ⟨{ s₁.routeAdd alloc e.destination eq.destination e.metric with entries := added s.entries x g },
    ?_, rfl, hlocal, by simp [Olsr.routeAdd, hmallocs]⟩
  filter_upwards [hends] with n hn
  rw [hadd, addRoute, hn]
  simp only [ok_bind, read_eq hq, read_eq hx₁]
  rw [modify_eq (s := s₁.routeAdd _ _ _ _) hx₁]
  congr 2
  funext p
  simp only [Olsr.routeAdd, hentries]
  by_cases hpx : p = x
  · subst hpx
    rw [update_self, added_some hx]
    simp
  rw [update_of_ne hpx]
  cases hp : s.entries p with
  | none => rw [linkUnder_none hp, added_none hp]
  | some ep => simp [linkUnder_some hp, added_some hp, hpx]

lemma getNextHop_of_add (hn : olsrRouteAdd alloc n x s = .ok s') : ∃ res,
    getNextHop (linkUnder s.entries x g) n (some x) = .ok res := by
  obtain ⟨s₁, hentries, -, -, hadd⟩ := olsrRouteAdd_link alloc hx hg heg
  rw [hadd] at hn
  obtain ⟨res, hres, -⟩ := bind_eq_ok.mp hn
  rw [hentries] at hres
  exact ⟨res, hres⟩

end

end Add

section AddShape

variable {s s' : Olsr} {kids : Option Nat → List Nat} {depth : Nat → Nat} {bound : Nat} (alloc : Nat → Bool)
  {x g : Nat} {e eg : OlsrEntry}

def addKids (kids : Option Nat → List Nat) (x g : Nat) : Option Nat → List Nat :=
  update kids (some g) (x :: kids (some g))

lemma mem_addKids {k : Option Nat} : p ∈ addKids kids x g k ↔ p ∈ kids k ∨ (p = x ∧ k = some g) := by
  by_cases hk : k = some g
  · subst hk
    simp [addKids, or_comm]
  · simp [addKids, hk]

section

variable (T : TreeShape s kids depth bound) (hx : s.entries x = some e) (hg : e.gateway = some g)
  (heg : s.entries g = some eg)

include T hx hg heg

lemma TreeShape.add (hfree : ∀ k, x ∉ kids k) (hleaf : e.children = none) (hmem : ∃ k, g ∈ kids k)
    (hentries : s'.entries = added s.entries x g) (hlocal : s'.localInterfaces = s.localInterfaces)
    (hmallocs : s'.mallocs = s.mallocs + 1) :
    TreeShape s' (addKids kids x g) (update depth x (depth g + 1)) (max bound (depth g + 1)) := by
  have hxg : g ≠ x := by
    rintro rfl
    exact hfree _ hmem.choose_spec
  have hne : ∀ k, ∀ p ∈ kids k, p ≠ x := by
    rintro k p hp rfl
    exact hfree k hp
  have hxkids : kids (some x) = [] := by
    by_contra hne
    obtain ⟨k, hk⟩ := T.rooted x hne
    exact hfree k hk
  have hsib {k start} (h : Siblings s.entries start (kids k)) : Siblings s'.entries start (kids k) := by
    apply h.congr
    intro q hq eq heq
    refine ⟨_, (congrFun hentries q).trans (added_some heq), ?_⟩
    simp [hne k q hq]
  have hother : ∀ p, p ≠ g → addKids kids x g (some p) = kids (some p) := by
    intro p hp
    exact update_of_ne (by simpa using hp) _ _
  refine { roots := ?_, child := ?_, nodup := ?_, rooted := ?_, root := ?_, deeper := ?_, bounded := ?_
           fresh := ?_ }
  · rw [hlocal]
    exact hsib T.roots
  · intro k p hp
    obtain hp' | ⟨rfl, rfl⟩ := mem_addKids.mp hp
    · obtain ⟨ep, hep, hgw, hch⟩ := T.child k p hp'
      refine ⟨_, (congrFun hentries p).trans (added_some hep), hgw, ?_⟩
      show Siblings _ (if p = g then some x else ep.children) _
      by_cases hpg : p = g
      · subst hpg
        rw [heg] at hep
        cases hep
        rw [if_pos rfl, addKids, update_self]
        refine ⟨rfl, _, (congrFun hentries x).trans (added_some hx), ?_⟩
        simpa [heg] using hsib hch
      rw [if_neg hpg, hother p hpg]
      exact hsib hch
    refine ⟨_, (congrFun hentries p).trans (added_some hx), hg, ?_⟩
    rw [hother p (Ne.symm hxg), hxkids]
    simpa [Ne.symm hxg, Siblings] using hleaf
  · intro k
    by_cases hk : k = some g
    · subst hk
      rw [addKids, update_self]
      exact nodup_cons.mpr ⟨hfree _, T.nodup _⟩
    rw [addKids, update_of_ne hk]
    exact T.nodup k
  · intro p hp
    obtain ⟨k, hk⟩ : ∃ k, p ∈ kids k := by
      by_cases hpg : p = g
      · rw [hpg]
        exact hmem
      rw [hother p hpg] at hp
      exact T.rooted p hp
    exact ⟨k, mem_addKids.mpr (.inl hk)⟩
  · intro p hp e' he'
    obtain hp | ⟨-, ⟨⟩⟩ := mem_addKids.mp hp
    obtain ⟨ep, hep, -, -⟩ := T.child none p hp
    rw [hentries, added_some hep] at he'
    cases he'
    exact T.root p hp ep hep
  · intro p q hq
    obtain hq' | ⟨rfl, ⟨⟩⟩ := mem_addKids.mp hq
    · have hpx : p ≠ x := by
        intro hpx
        rw [hpx, hxkids] at hq'
        cases hq'
      rw [update_of_ne (hne _ q hq'), update_of_ne hpx]
      exact T.deeper p q hq'
    · rw [update_self, update_of_ne hxg]
  · intro k p hp
    obtain hp | ⟨rfl, -⟩ := mem_addKids.mp hp
    · rw [update_of_ne (hne k p hp)]
      exact (T.bounded k p hp).trans (le_max_left _ _)
    rw [update_self]
    exact le_max_right _ _
  · intro p hp
    rw [hentries, added_none (T.fresh p (by omega))]

lemma TreeShape.add_ends (hfree : ∀ k, x ∉ kids k) (hleaf : e.children = none) (hhop : HasHop s.entries x) : ∃ s',
    Ends (fun n => olsrRouteAdd alloc n x s) s' ∧ s'.IsTree ∧ SameHops s.entries s'.entries := by
  obtain ⟨s', hends, hentries, hlocal, hmallocs⟩ := olsrRouteAdd_ends alloc hx hg heg hhop
  refine ⟨s', hends, ?_, by rw [hentries]; exact sameHops_added x g⟩
  by_cases hmem : ∃ k, g ∈ kids k
  · exact ⟨_, _, _, T.add hx hg heg hfree hleaf hmem hentries hlocal hmallocs⟩
  refine ⟨kids, depth, bound, T.congr hlocal ?_ ?_⟩
  · intro k p hp ep hep
    have hpx : p ≠ x := by
      rintro rfl
      exact hfree k hp
    have hpg : p ≠ g := by
      rintro rfl
      exact hmem ⟨k, hp⟩
    exact ⟨_, (congrFun hentries p).trans (added_some hep), by simp [hpx], by simp [hpg], rfl, fun _ => ⟨rfl, rfl⟩⟩
  intro p hp
  rw [hentries, added_none (T.fresh p (by omega))]

end

end AddShape

end Vde
