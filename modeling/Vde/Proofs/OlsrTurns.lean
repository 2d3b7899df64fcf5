import Vde.Proofs.OlsrMoves

/-!
# OLSR: receiving a datagram

When `olsr_recv` returns. Each of its loops comes from state to state; what a turn needs is said for the
state in which it begins: that what it reads lies in the datagram, that it gets on, and that an entry which
it moves has no two children under it and does not become a gateway of itself.
-/

namespace Vde

open Function

def Finds (s : Olsr) (ip : BitVec 32) (res : Option Nat) : Prop :=
  Ends (fun n => getRouteByAddress s.entries ip n s.localInterfaces) res

structure MoveOk (h : OlsrHeap) (origin x : Nat) (m : BitVec 16) : Prop where
  thin : Thin h x
  noCircle : Passes h x origin → m.toNat ≤ 1

/-- The loops of the messages go through states in which the walk to the next hop of the originator ends. It
need not stand in the tree any more. -/
structure OriginInv (s : Olsr) (origin : Nat) : Prop where
  tree : s.IsTree
  hop : HasHop s.entries origin

variable {kids : Option Nat → List Nat} {depth : Nat → Nat} {bound g : Nat} {f : OlsrEntry → OlsrEntry}

section Moves

variable (alloc : Nat → Bool) {s s₁ s₂ s' : Olsr} {origin x n : Nat} {e : OlsrEntry}

lemma finds_of_ok {ip : BitVec 32} {res : Option Nat}
    (h : getRouteByAddress s.entries ip n s.localInterfaces = .ok res) : Finds s ip res :=
  FuelMono.ends (fun _ _ hnm => getRouteByAddress_below _ _ hnm _) h

lemma TreeShape.finds_mem
    (T : TreeShape s kids depth bound) {ip : BitVec 32} (h : Finds s ip (some x)) : ∃ k, x ∈ kids k := by
  obtain ⟨res, hres, hmem⟩ := T.getRouteByAddress_ends ip
  exact hmem x (hres.unique h)

lemma HasHop.entry {h : OlsrHeap} {p : Nat} (hp : HasHop h p) : ∃ e, h p = some e := by
  cases hp with
  | near he _ => exact ⟨_, he⟩
  | up he _ _ _ => exact ⟨_, he⟩

lemma HasHop.of_gateway {h : OlsrHeap} (hx : h x = some e) (hg : e.gateway = some origin)
    (ho : 1 < e.metric.toNat → HasHop h origin) : HasHop h x := by
  by_cases hm : e.metric.toNat ≤ 1
  · exact .near hx hm
  · exact .up hx (by omega) hg (ho (by omega))

lemma OriginInv.new_ends (hs : OriginInv s origin) (hg : e.gateway = some origin) (hc : e.children = none)
    (hentries : s₁.entries = update s.entries s.mallocs (some e))
    (hlocal : s₁.localInterfaces = s.localInterfaces) (hmallocs : s₁.mallocs = s.mallocs + 1) :
    ∃ s', Ends (fun n => olsrRouteAdd alloc n s.mallocs s₁) s' ∧ OriginInv s' origin := by
  obtain ⟨kids, depth, bound, T⟩ := hs.tree
  have hnew : ∀ p e, s.entries p = some e → p ≠ s.mallocs := by
    rintro p e he rfl
    rw [T.fresh _ le_rfl] at he
    cases he
  have hfree : ∀ k, s.mallocs ∉ kids k := by
    intro k hk
    obtain ⟨e, he, -⟩ := T.child k _ hk
    exact hnew _ e he rfl
  have hsame : ∀ p e, s.entries p = some e → s₁.entries p = some e := by
    intro p e he
    rw [hentries, update_of_ne (hnew p e he), he]
  have hx : s₁.entries s.mallocs = some e := by rw [hentries, update_self]
  have hhops : SameHops s.entries s₁.entries := fun p e he => ⟨e, hsame p e he, rfl, rfl⟩
  have T₁ : TreeShape s₁ kids depth bound := by
    apply T.congr hlocal
    · intro k p _ ep hep
      exact ⟨ep, hsame p ep hep, rfl, rfl, rfl, fun _ => ⟨rfl, rfl⟩⟩
    intro p hp
    rw [hentries, update_of_ne (by omega), T.fresh p (by omega)]
  have ho : HasHop s₁.entries origin := hs.hop.same hhops
  obtain ⟨eo, heo⟩ := ho.entry
  obtain ⟨s', hends, htree, hhops'⟩ :=
    T₁.add_ends alloc hx hg heo hfree hc (.of_gateway hx hg (fun _ => ho))
  exact ⟨s', hends, htree, ho.same hhops'⟩

lemma malloc_modify (ha : alloc s.mallocs = true) : ∃ s₁, s.malloc alloc = (some s.mallocs, s₁) ∧
    (∀ p, p ≠ s.mallocs → s₁.entries p = s.entries p) ∧ ∀ f, ∃ s₂, s₁.modify s.mallocs f = .ok s₂ ∧ s₂.entries =
    update s.entries s.mallocs (some (f {})) ∧ s₂.localInterfaces = s.localInterfaces ∧ s₂.mallocs =
    s.mallocs + 1 := by
  refine ⟨{ s with
    mallocs := s.mallocs + 1, entries := update s.entries s.mallocs (some {}) },
    by simp [Olsr.malloc, ha], fun p hp => update_of_ne hp _ _, fun f => ?_⟩
  refine ⟨_, modify_eq (update_self _ _ _) f, ?_, rfl, rfl⟩
  rw [update_idem]

lemma OriginInv.origin_ne (hs : OriginInv s origin) : origin ≠ s.mallocs := by
  rintro rfl
  obtain ⟨kids, depth, bound, T⟩ := hs.tree
  obtain ⟨e, he⟩ := hs.hop.entry
  rw [T.fresh _ le_rfl] at he
  cases he

lemma OriginInv.move_ends (hs : OriginInv s origin) (T : TreeShape s kids depth bound) (hx : x ∈ kids (some g))
    {m : BitVec 16} (hok : MoveOk s.entries origin x m) : ∃ s₁, Ends (fun n => olsrRouteDel n x s) s₁ ∧
    SameHops s.entries s₁.entries ∧ ∀ f : OlsrEntry → OlsrEntry,
    (∀ e, (f e).metric = m ∧ (f e).gateway = some origin ∧ (f e).children = e.children) → ∃ s₂, s₁.modify x f =
    .ok s₂ ∧ ∃ s', Ends (fun n => olsrRouteAdd alloc n x s₂) s' ∧ OriginInv s' origin ∧ HasHop s'.entries x := by
  obtain ⟨s₁, hends, hrem⟩ := T.del_ends hx hok.thin
  obtain ⟨e, he, hleaf⟩ := hrem.leaf
  obtain ⟨kids₁, depth₁, bound₁, T₁, hfree⟩ := hrem.tree
  refine ⟨s₁, hends, hrem.hops, fun f hf => ⟨_, modify_eq he f, ?_⟩⟩
  obtain ⟨hm, hg, hc⟩ := hf e
  let s₂ : Olsr := { s₁ with entries := update s₁.entries x (some (f e)) }
  have hx₂ : s₂.entries x = some (f e) := update_self _ _ _
  have hother : ∀ p, p ≠ x → s₂.entries p = s₁.entries p := fun p hp => update_of_ne hp _ _
  have T₂ : TreeShape s₂ kids₁ depth₁ bound₁ := by
    have hlocal : s₂.localInterfaces = s₁.localInterfaces := rfl
    apply T₁.congr hlocal
    · intro k p hp ep hep
      have hpx : p ≠ x := fun h => hfree k (h ▸ hp)
      exact ⟨ep, by rw [hother p hpx, hep], rfl, rfl, rfl, fun _ => ⟨rfl, rfl⟩⟩
    intro p hp
    have hp₁ := T₁.fresh p hp
    rw [hother p (fun h => by rw [h, he] at hp₁; cases hp₁), hp₁]
  have ho : HasHop s₂.entries origin := by
    apply hs.hop.congr
    intro q hpass eq heq
    by_cases hq : q = x
    · subst hq
      exact ⟨f e, hx₂, .inr (by rw [hm]; exact hok.noCircle hpass)⟩
    obtain ⟨e', he', hsame⟩ := hrem.hops q eq heq
    exact ⟨e', by rw [hother q hq, he'], .inl hsame⟩
  obtain ⟨eo, heo⟩ := ho.entry
  have hhop : HasHop s₂.entries x := .of_gateway hx₂ hg (fun _ => ho)
  obtain ⟨s', hends', htree, hhops⟩ := T₂.add_ends alloc hx₂ hg heo hfree (hc.trans hleaf) hhop
  exact ⟨s', hends', ⟨htree, ho.same hhops⟩, hhop.same hhops⟩

section

variable (T : TreeShape s kids depth bound) (hx : x ∈ kids (some g)) (hdel : olsrRouteDel n x s = .ok s₁)

include T hx hdel

lemma TreeShape.removed_of_del : Removed s s₁ x := by
  obtain ⟨s₁', hends, hrem⟩ := T.del_ends hx (T.thin_of_del hx hdel)
  cases hends.unique (FuelMono.ends (fun n m h => (del_below h _ _).1) hdel)
  exact hrem

lemma TreeShape.del_metric {p : Nat} {e e₁ : OlsrEntry} (he : s.entries p = some e) (he₁ : s₁.entries p = some e₁) :
    e₁.metric = e.metric := by
  obtain ⟨e', he', hm, -⟩ := (T.removed_of_del hx hdel).hops p e he
  rw [he₁] at he'
  cases he'
  exact hm

end

lemma OriginInv.moveOk (hs : OriginInv s origin) (T : TreeShape s kids depth bound) (hx : x ∈ kids (some g))
    {m : BitVec 16} (hf : ∀ e, (f e).metric = m ∧ (f e).gateway = some origin) (hdel : olsrRouteDel n x s = .ok s₁)
    (hmod : s₁.modify x f = .ok s₂) (hadd : olsrRouteAdd alloc n x s₂ = .ok s') : MoveOk s.entries origin x m := by
  have hrem := T.removed_of_del hx hdel
  refine ⟨T.thin_of_del hx hdel, fun hpass => ?_⟩
  obtain ⟨e, he, rfl⟩ := modify_ok hmod
  obtain ⟨hm, hg⟩ := hf e
  have hother : ∀ p, p ≠ x → update s₁.entries x (some (f e)) p = s₁.entries p :=
    fun p hp => update_of_ne hp _ _
  have hentry : ∃ eo, update s₁.entries x (some (f e)) origin = some eo := by
    by_cases hox : origin = x
    · exact ⟨f e, by rw [hox, update_self]⟩
    obtain ⟨eo, heo⟩ := hs.hop.entry
    obtain ⟨e', he', -⟩ := hrem.hops origin eo heo
    exact ⟨e', by rw [hother origin hox, he']⟩
  obtain ⟨eo, heo⟩ := hentry
  obtain ⟨res, hres⟩ := getNextHop_of_add alloc (update_self _ _ _) hg heo hadd
  by_contra hlt
  -- the entry and the originator are now each other's gateways
  have hpass' : Passes (linkUnder (update s₁.entries x (some (f e))) x origin) x origin := by
    apply hpass.congr
    intro q hq eq heq
    obtain ⟨e₁, he₁, hm₁, hg₁⟩ := hrem.hops q eq heq
    rw [← hother q hq] at he₁
    obtain ⟨e₂, he₂, hm₂, hg₂⟩ := sameHops_linkUnder x origin q e₁ he₁
    exact ⟨e₂, he₂, hm₂.trans hm₁, hg₂.trans hg₁⟩
  refine getNextHop_circle (linkUnder_some (update_self _ _ _)) ?_ hg hpass' hres
  show 1 < (f e).metric.toNat
  rw [hm]
  omega

lemma Olsr.IsTree.of_entries (hs : s.IsTree) (hentries : s'.entries = s.entries)
    (hlocal : s'.localInterfaces = s.localInterfaces) (hmallocs : s.mallocs ≤ s'.mallocs) : s'.IsTree := by
  obtain ⟨kids, depth, bound, T⟩ := hs
  refine ⟨kids, depth, bound, T.congr hlocal ?_ ?_⟩
  · intro k p _ e he
    exact ⟨e, by rw [hentries, he], rfl, rfl, rfl, fun _ => ⟨rfl, rfl⟩⟩
  intro p hp
  rw [hentries, T.fresh p (by omega)]

lemma OriginInv.of_entries (hs : OriginInv s origin) (hentries : s'.entries = s.entries)
    (hlocal : s'.localInterfaces = s.localInterfaces) (hmallocs : s.mallocs ≤ s'.mallocs) : OriginInv s' origin :=
  ⟨hs.tree.of_entries hentries hlocal hmallocs, hentries ▸ hs.hop⟩

lemma TreeShape.touch
    (T : TreeShape s kids depth bound) (hx : s.entries x = some e)
    (hn : (f e).next = e.next) (hc : (f e).children = e.children) (hg : (f e).gateway = e.gateway)
    (hm : (f e).metric = e.metric) (hq : (f e).nlq = e.nlq) :
    TreeShape { s with entries := update s.entries x (some (f e)) } kids depth bound := by
  refine T.congr rfl ?_ ?_
  · intro k p _ ep hep
    by_cases hpx : p = x
    · subst hpx
      rw [hx] at hep
      cases hep
      exact ⟨f e, update_self _ _ _, hn, hc, hg, fun _ => ⟨hm, hq⟩⟩
    · exact ⟨ep, (update_of_ne hpx _ _).trans hep, rfl, rfl, rfl, fun _ => ⟨rfl, rfl⟩⟩
  intro p hp
  have hp' := T.fresh p hp
  have hpx : p ≠ x := by
    rintro rfl
    rw [hx] at hp'
    cases hp'
  exact (update_of_ne hpx _ _).trans hp'

lemma OriginInv.touch (hs : OriginInv s origin) (hx : s.entries x = some e)
    (hn : (f e).next = e.next) (hc : (f e).children = e.children) (hg : (f e).gateway = e.gateway)
    (hm : (f e).metric = e.metric) (hq : (f e).nlq = e.nlq) :
    OriginInv { s with entries := update s.entries x (some (f e)) } origin := by
  obtain ⟨kids, depth, bound, T⟩ := hs.tree
  refine ⟨⟨kids, depth, bound, T.touch hx hn hc hg hm hq⟩, hs.hop.same (sameHops_update hx hm hg)⟩

lemma TreeShape.not_root {k : Option Nat} (T : TreeShape s kids depth bound) (hx : x ∈ kids k)
    (he : s.entries x = some e) (h : 0 < e.metric.toNat ∨ e.nlq ≠ 255) : ∃ g, x ∈ kids (some g) := by
  cases k with
  | some g => exact ⟨g, hx⟩
  | none =>
    obtain ⟨hm, hn⟩ := T.root x hx e he
    rw [hm, hn] at h
    simp at h

end Moves

section Reads

variable {d : Dgram} {off : Nat}

lemma ite_ok {α : Type} {p : Prop} [Decidable p] {a x : α} {f : OlsrFault} :
    (if p then Except.ok a else Except.error f) = .ok x ↔ p ∧ x = a := by
  split
  · next h => simp [h, eq_comm]
  · next h => simp [h]

lemma get8_iff {x : UInt8} : d.get8 off = .ok x ↔ off < d.len ∧ x = d.mem off := ite_ok

lemma get16_iff {x : BitVec 16} : d.get16 off = .ok x ↔ off + 2 ≤ d.len ∧ x = load16 d.mem off := ite_ok

lemma get32_iff {x : BitVec 32} : d.get32 off = .ok x ↔ off + 4 ≤ d.len ∧ x = load32 d.mem off := ite_ok

lemma set8_iff {x : UInt8} {d' : Dgram} :
    d.set8 off x = .ok d' ↔ off < d.len ∧ d' = { d with mem := store8 d.mem off x } := ite_ok

lemma getBytes_iff {n : Nat} {l : List UInt8} :
    d.getBytes off n = .ok l ↔ off + n ≤ d.len ∧ l = readBytes d.mem off n := ite_ok

end Reads

variable {t : Nat × Olsr}

section Mid

variable (alloc : Nat → Bool) (d : Dgram) (base : Nat) (len : Int) (origin : Nat)

structure MidOk (t : Nat × Olsr) : Prop where
  inside : base + t.1 + 4 ≤ d.len
  move : ∀ e ee eo, Finds t.2 (load32 d.mem (base + t.1)) (some e) → t.2.entries e = some ee →
    t.2.entries origin = some eo → ee.metric.toNat > eo.metric.toNat + 1 → MoveOk t.2.entries origin e eo.metric

def TurnKeeps (step : Nat) (origin : Nat) (t : Nat × Olsr) : (Nat × Olsr) ⊕ Olsr → Prop
  | .inl u => u.1 = t.1 + step ∧ OriginInv u.2 origin
  | .inr s => OriginInv s origin

lemma midTurn_ends (hs : OriginInv t.2 origin) (hlt : t.1 < len) (hok : MidOk d base origin t) :
    ∃ x, Ends (fun n => midTurn alloc d base len origin n t) x ∧ TurnKeeps 4 origin t x := by
  obtain ⟨parsed, s⟩ := t
  obtain ⟨kids, depth, bound, T⟩ := hs.tree
  obtain ⟨eo, heo⟩ := hs.hop.entry
  have hget := get32_iff.mpr ⟨hok.inside, rfl⟩
  obtain ⟨res, hres, hmem⟩ := T.getRouteByAddress_ends (load32 d.mem (base + parsed))
  have hlt' : ¬len ≤ parsed := not_le.mpr hlt
  cases res with
  | none =>
    cases ha : alloc s.mallocs with
    | false =>
      refine ⟨.inr { s with mallocs := s.mallocs + 1 }, ?_, hs.of_entries rfl rfl (Nat.le_succ _)⟩
      filter_upwards [hres] with n hn
      simp [midTurn, hlt', hget, hn, Olsr.malloc, ha]
    | true =>
      obtain ⟨s₁, hmalloc, hother, hmodify⟩ := malloc_modify alloc ha
      have heo₁ : s₁.entries origin = some eo := by rw [hother origin hs.origin_ne, heo]
      obtain ⟨s₂, hmod, hentries, hlocal, hmallocs⟩ := hmodify (fun _ =>
        { timeLeft := OLSR_MSG_INTERVAL * 4, destination := load32 d.mem (base + parsed), gateway := some origin
          iface := eo.iface, metric := eo.metric + 1, lq := eo.lq, nlq := eo.nlq })
      obtain ⟨s', hadd, hs'⟩ := hs.new_ends alloc rfl rfl hentries hlocal hmallocs
      refine ⟨.inl (parsed + 4, arpStorm (load32 d.mem (base + parsed)) s'), ?_, rfl, ?_⟩
      · filter_upwards [hres, hadd] with n hn hadd
        simp only [midTurn, if_neg hlt', hget, ok_bind, hn, hmalloc, read_eq heo₁, hmod, hadd, pure_eq_ok]
      · exact hs'.of_entries rfl rfl le_rfl
  | some e =>
    obtain ⟨k, hk⟩ := hmem e rfl
    obtain ⟨ee, hee, -, -⟩ := T.child k e hk
    by_cases hm : ee.metric.toNat > eo.metric.toNat + 1
    · obtain ⟨g, hg⟩ := T.not_root hk hee (.inl (by omega))
      obtain ⟨s₁, hdel, hhops, hmove⟩ := hs.move_ends alloc T hg (hok.move e ee eo hres hee heo hm)
      obtain ⟨eo₁, heo₁, hm₁, -⟩ := hhops origin eo heo
      obtain ⟨s₂, hmod, s', hadd, hs', -⟩ :=
        hmove (fun x => { x with metric := eo₁.metric, gateway := some origin }) (fun x => ⟨hm₁, rfl, rfl⟩)
      refine ⟨.inl (parsed + 4, s'), ?_, rfl, hs'⟩
      filter_upwards [hres, hdel, hadd] with n hn hdel hadd
      simp [midTurn, hlt', hget, hn, read_eq hee, read_eq heo, hm, hdel, read_eq heo₁, hmod, hadd]
    refine ⟨.inl (parsed + 4, s), ?_, rfl, hs⟩
    filter_upwards [hres] with n hn
    simp [midTurn, hlt', hget, hn, read_eq hee, read_eq heo, hm]

lemma midTurn_ok {n : Nat} {x : (Nat × Olsr) ⊕ Olsr} (hs : OriginInv t.2 origin)
    (hlt : t.1 < len) (hn : midTurn alloc d base len origin n t = .ok x) : MidOk d base origin t := by
  obtain ⟨parsed, s⟩ := t
  obtain ⟨kids, depth, bound, T⟩ := hs.tree
  rw [midTurn, if_neg (not_le.mpr hlt)] at hn
  obtain ⟨address, haddress, hn⟩ := bind_eq_ok.mp hn
  obtain ⟨hinside, rfl⟩ := get32_iff.mp haddress
  refine ⟨hinside, fun e ee eo hfinds hee heo hm => ?_⟩
  obtain ⟨res, hres, hn⟩ := bind_eq_ok.mp hn
  cases hfinds.unique (finds_of_ok hres)
  obtain ⟨k, hk⟩ := T.finds_mem hfinds
  obtain ⟨g, hg⟩ := T.not_root hk hee (.inl (by omega))
  simp only [read_eq hee, read_eq heo, ok_bind, if_pos hm] at hn
  obtain ⟨s₁, hdel, hn⟩ := bind_eq_ok.mp hn
  obtain ⟨eo₁, heo₁, hn⟩ := bind_eq_ok.mp hn
  obtain ⟨s₂, hmod, hn⟩ := bind_eq_ok.mp hn
  obtain ⟨s', hadd, -⟩ := bind_eq_ok.mp hn
  have hhops : eo₁.metric = eo.metric := T.del_metric hg hdel heo (read_ok heo₁)
  refine hs.moveOk alloc T hg ?_ hdel hmod hadd
  intro x
  exact ⟨hhops, rfl⟩

end Mid

section Hello

variable (alloc : Nat → Bool) (d : Dgram) (base : Nat) (len : Int) (origin : Nat)

def linkSize : Nat := (ntohs (load16 d.mem (base + 2))).toNat

structure HelloOk (t : Nat × Olsr) : Prop where
  link : base + 4 ≤ d.len
  inside : base + t.1 + 8 ≤ d.len
  quality : Finds t.2 (load32 d.mem (base + t.1 + 4)) none → alloc t.2.mallocs = true → base + t.1 + 10 ≤ d.len
  move : ∀ e ee eo, Finds t.2 (load32 d.mem (base + t.1 + 4)) (some e) → t.2.entries e = some ee →
    t.2.entries origin = some eo → ee.gateway ≠ some origin → ee.metric.toNat > eo.metric.toNat + 1 →
    MoveOk t.2.entries origin e (eo.metric + 1)

lemma helloTurn_ends (hs : OriginInv t.2 origin) (hlt : t.1 < len) (hok : HelloOk alloc d base origin t) : ∃ x,
    Ends (fun n => helloTurn alloc d base len origin n t) x ∧ TurnKeeps (linkSize d base) origin t x ∧
    (x.isRight ↔ Finds t.2 (load32 d.mem (base + t.1 + 4)) none ∧ alloc t.2.mallocs = false) := by
  obtain ⟨parsed, s⟩ := t
  obtain ⟨kids, depth, bound, T⟩ := hs.tree
  obtain ⟨eo, heo⟩ := hs.hop.entry
  have hlink := get16_iff.mpr ⟨hok.link, rfl⟩
  have hget := get32_iff.mpr ⟨hok.inside, rfl⟩
  obtain ⟨res, hres, hmem⟩ := T.getRouteByAddress_ends (load32 d.mem (base + parsed + 4))
  have hlt' : ¬len ≤ parsed := not_le.mpr hlt
  cases res with
  | none =>
    cases ha : alloc s.mallocs with
    | false =>
      refine ⟨.inr { s with mallocs := s.mallocs + 1 }, ?_, hs.of_entries rfl rfl (Nat.le_succ _),
        by simp [Finds, hres]⟩
      filter_upwards [hres] with n hn
      simp [helloTurn, hlt', hlink, hget, hn, Olsr.malloc, ha]
    | true =>
      have hquality : base + parsed + 10 ≤ d.len := hok.quality hres ha
      have hlq := get8_iff.mpr ⟨show base + parsed + 8 < d.len by omega, rfl⟩
      have hnlq := get8_iff.mpr ⟨show base + parsed + 9 < d.len by omega, rfl⟩
      obtain ⟨s₁, hmalloc, hother, hmodify⟩ := malloc_modify alloc ha
      have heo₁ : s₁.entries origin = some eo := by rw [hother origin hs.origin_ne, heo]
      obtain ⟨s₂, hmod, hentries, hlocal, hmallocs⟩ := hmodify (fun _ =>
        { timeLeft := OLSR_MSG_INTERVAL * 4, destination := load32 d.mem (base + parsed + 4)
          gateway := some origin, iface := eo.iface, metric := eo.metric + 1, linkType := OLSRLINK_UNKNOWN
          lq := min eo.lq (d.mem (base + parsed + 8)), nlq := min eo.nlq (d.mem (base + parsed + 9)) })
      obtain ⟨s', hadd, hs'⟩ := hs.new_ends alloc rfl rfl hentries hlocal hmallocs
      refine ⟨.inl (parsed + linkSize d base, arpStorm (load32 d.mem (base + parsed + 4)) s'), ?_, ⟨rfl, ?_⟩,
        by simp⟩
      · filter_upwards [hres, hadd] with n hn hadd
        simp only [helloTurn, if_neg hlt', hlink, hget, ok_bind, hn, hmalloc, read_eq heo₁, hlq, hnlq, hmod,
          hadd, pure_eq_ok, linkSize]
      · exact hs'.of_entries rfl rfl le_rfl
  | some e =>
    have hnone : ¬Finds s (load32 d.mem (base + parsed + 4)) none := fun h => by cases h.unique hres
    obtain ⟨k, hk⟩ := hmem e rfl
    obtain ⟨ee, hee, -, -⟩ := T.child k e hk
    by_cases hm : ee.gateway ≠ some origin ∧ ee.metric.toNat > eo.metric.toNat + 1
    · obtain ⟨g, hg⟩ := T.not_root hk hee (.inl (by omega))
      obtain ⟨s₁, hdel, hhops, hmove⟩ :=
        hs.move_ends alloc T hg (hok.move e ee eo hres hee heo hm.1 hm.2)
      obtain ⟨eo₁, heo₁, hm₁, -⟩ := hhops origin eo heo
      obtain ⟨s₂, hmod, s', hadd, hs', -⟩ :=
        hmove (fun x => { x with metric := eo₁.metric + 1, gateway := some origin })
          (fun x => ⟨by rw [← hm₁], rfl, rfl⟩)
      refine ⟨.inl (parsed + linkSize d base, s'), ?_, ⟨rfl, hs'⟩, by simp [hnone]⟩
      filter_upwards [hres, hdel, hadd] with n hn hdel hadd
      simp only [helloTurn, if_neg hlt', hlink, hget, ok_bind, hn, read_eq hee, read_eq heo, if_pos hm, hdel,
        read_eq heo₁, hmod, hadd, pure_eq_ok, linkSize]
    refine ⟨.inl (parsed + linkSize d base, s), ?_, ⟨rfl, hs⟩, by simp [hnone]⟩
    filter_upwards [hres] with n hn
    simp only [helloTurn, if_neg hlt', hlink, hget, ok_bind, hn, read_eq hee, read_eq heo, if_neg hm,
      pure_eq_ok, linkSize]

lemma helloTurn_ok {n : Nat} {x : (Nat × Olsr) ⊕ Olsr} (hs : OriginInv t.2 origin)
    (hlt : t.1 < len) (hn : helloTurn alloc d base len origin n t = .ok x) : HelloOk alloc d base origin t := by
  obtain ⟨parsed, s⟩ := t
  obtain ⟨kids, depth, bound, T⟩ := hs.tree
  rw [helloTurn, if_neg (not_le.mpr hlt)] at hn
  obtain ⟨size, hsize, hn⟩ := bind_eq_ok.mp hn
  obtain ⟨hlink, rfl⟩ := get16_iff.mp hsize
  obtain ⟨addr, haddr, hn⟩ := bind_eq_ok.mp hn
  obtain ⟨hinside, rfl⟩ := get32_iff.mp haddr
  obtain ⟨res, hres, hn⟩ := bind_eq_ok.mp hn
  have hres := finds_of_ok hres
  refine ⟨hlink, hinside, fun hfinds ha => ?_, fun e ee eo hfinds hee heo hgw hm => ?_⟩
  · cases hfinds.unique hres
    obtain ⟨s₁, hmalloc, -, -⟩ := malloc_modify alloc ha
    simp only [hmalloc] at hn
    obtain ⟨eo, -, hn⟩ := bind_eq_ok.mp hn
    obtain ⟨lq, -, hn⟩ := bind_eq_ok.mp hn
    obtain ⟨nlq, hnlq, -⟩ := bind_eq_ok.mp hn
    exact (get8_iff.mp hnlq).1
  cases hfinds.unique hres
  obtain ⟨k, hk⟩ := T.finds_mem hfinds
  obtain ⟨g, hg⟩ := T.not_root hk hee (.inl (by omega))
  simp only [read_eq hee, read_eq heo, ok_bind, if_pos (And.intro hgw hm)] at hn
  obtain ⟨s₁, hdel, hn⟩ := bind_eq_ok.mp hn
  obtain ⟨eo₁, heo₁, hn⟩ := bind_eq_ok.mp hn
  obtain ⟨s₂, hmod, hn⟩ := bind_eq_ok.mp hn
  obtain ⟨s', hadd, -⟩ := bind_eq_ok.mp hn
  have hhops : eo₁.metric = eo.metric := T.del_metric hg hdel heo (read_ok heo₁)
  refine hs.moveOk alloc T hg ?_ hdel hmod hadd
  intro x
  exact ⟨by rw [← hhops], rfl⟩

end Hello

section Tc

variable (alloc : Nat → Bool) (d : Dgram) (base : Nat) (size : Int) (origin : Nat)

structure TcOk (t : Nat × Olsr) : Prop where
  inside : base + t.1 + 4 ≤ d.len
  new : Finds t.2 (load32 d.mem (base + t.1)) none → alloc t.2.mallocs = true ∧ base + t.1 + 6 ≤ d.len
  quality : ∀ rt x, Finds t.2 (load32 d.mem (base + t.1)) (some rt) → t.2.entries rt = some x →
    x.gateway ≠ some origin → base + t.1 + 6 ≤ d.len
  move : ∀ rt x eo, Finds t.2 (load32 d.mem (base + t.1)) (some rt) → t.2.entries rt = some x →
    t.2.entries origin = some eo → x.gateway ≠ some origin →
    x.metric.toNat > eo.metric.toNat + 1 ∨ x.nlq < d.mem (base + t.1 + 5) →
    MoveOk t.2.entries origin rt (eo.metric + 1)

lemma tcMoves_eq {off : Nat} {ee x : OlsrEntry} (h : off + 6 ≤ d.len) :
    tcMoves d off ee x = .ok (decide (x.metric.toNat > ee.metric.toNat + 1 ∨ x.nlq < d.mem (off + 5))) := by
  unfold tcMoves
  split
  · next hm => simp [hm]
  · next hm => simp [get8_iff.mpr ⟨show off + 5 < d.len by omega, rfl⟩, hm]

lemma not_root_of_moves {x eo : OlsrEntry} {nlq : UInt8}
    (h : x.metric.toNat > eo.metric.toNat + 1 ∨ x.nlq < nlq) : 0 < x.metric.toNat ∨ x.nlq ≠ 255 := by
  rcases h with hm | hn
  · exact .inl (by omega)
  refine .inr (fun h255 => ?_)
  rw [h255, UInt8.lt_iff_toNat_lt] at hn
  have hle := nlq.toNat_lt
  have h255 : (255 : UInt8).toNat = 255 := rfl
  omega

lemma placeUnder_eq {n off rt : Nat} {s : Olsr} {eo : OlsrEntry} (heo : s.entries origin = some eo)
    (h : off + 6 ≤ d.len) :
    placeUnder alloc d n off origin rt s =
      s.modify rt (fun x => x.placedUnder origin eo (d.mem (off + 4)) (d.mem (off + 5))) >>=
        olsrRouteAdd alloc n rt := by
  have hlq := get8_iff.mpr ⟨show off + 4 < d.len by omega, rfl⟩
  have hnlq := get8_iff.mpr ⟨show off + 5 < d.len by omega, rfl⟩
  simp only [placeUnder, read_eq heo, ok_bind, hlq, hnlq]

lemma placeUnder_inside {alloc : Nat → Bool} {d : Dgram} {n off e rt : Nat} {s s' : Olsr}
    (h : placeUnder alloc d n off e rt s = .ok s') : off + 6 ≤ d.len := by
  obtain ⟨ee, -, h⟩ := bind_eq_ok.mp h
  obtain ⟨lq, -, h⟩ := bind_eq_ok.mp h
  obtain ⟨nlq, hnlq, -⟩ := bind_eq_ok.mp h
  exact (get8_iff.mp hnlq).1

lemma tcMoves_true {d : Dgram} {off : Nat} {ee x : OlsrEntry} {moves : Bool}
    (h : x.metric.toNat > ee.metric.toNat + 1 ∨ x.nlq < d.mem (off + 5)) (hm : tcMoves d off ee x = .ok moves) :
    moves = true := by
  unfold tcMoves at hm
  split at hm
  · cases hm
    rfl
  next hmetric =>
  obtain ⟨nlq, hnlq, hm⟩ := bind_eq_ok.mp hm
  obtain ⟨-, rfl⟩ := get8_iff.mp hnlq
  cases hm
  exact decide_eq_true (h.resolve_left hmetric)

lemma tcTurn_ends (hs : OriginInv t.2 origin) (hlt : t.1 < size) (hok : TcOk alloc d base origin t) : ∃ x,
    Ends (fun n => tcTurn alloc d base size origin n t) x ∧ TurnKeeps 8 origin t x := by
  obtain ⟨parsed, s⟩ := t
  obtain ⟨kids, depth, bound, T⟩ := hs.tree
  obtain ⟨eo, heo⟩ := hs.hop.entry
  have hget := get32_iff.mpr ⟨hok.inside, rfl⟩
  obtain ⟨res, hres, hmem⟩ := T.getRouteByAddress_ends (load32 d.mem (base + parsed))
  have hlt' : ¬size ≤ parsed := not_le.mpr hlt
  cases res with
  | none =>
    obtain ⟨ha, hquality⟩ : alloc s.mallocs = true ∧ base + parsed + 6 ≤ d.len := hok.new hres
    obtain ⟨s₁, hmalloc, hother, hmodify⟩ := malloc_modify alloc ha
    obtain ⟨s₂, hmod, hentries, hlocal, hmallocs⟩ :=
      hmodify (fun x => { x with destination := load32 d.mem (base + parsed) })
    have heo₂ : s₂.entries origin = some eo := by
      rw [hentries, update_of_ne hs.origin_ne, heo]
    have hrt₂ : s₂.entries s.mallocs = some { destination := load32 d.mem (base + parsed) } := by
      rw [hentries, update_self]
    let x : OlsrEntry := { destination := load32 d.mem (base + parsed) }
    let y := x.placedUnder origin eo (d.mem (base + parsed + 4)) (d.mem (base + parsed + 5))
    let s₃ : Olsr := { s₂ with entries := update s₂.entries s.mallocs (some y) }
    have hentries₃ : s₃.entries = update s.entries s.mallocs (some y) := by
      dsimp only [s₃]
      rw [hentries, update_idem]
    obtain ⟨s', hadd, hs'⟩ := hs.new_ends alloc rfl rfl hentries₃ hlocal hmallocs
    refine ⟨.inl (parsed + 8, s'), ?_, rfl, hs'⟩
    filter_upwards [hres, hadd] with n hn hadd
    simp only [tcTurn, if_neg hlt', hget, ok_bind, hn, hmalloc, hmod,
      placeUnder_eq alloc d origin heo₂ hquality, modify_eq hrt₂]
    show (olsrRouteAdd alloc n s.mallocs s₃ >>= _) = _
    rw [hadd]
    rfl
  | some rt =>
    obtain ⟨k, hk⟩ := hmem rt rfl
    obtain ⟨x, hx, hgx, -⟩ := T.child k rt hk
    by_cases hg : x.gateway = some origin
    · refine ⟨.inl (parsed + 8, { s with
        entries := update s.entries rt (some { x with timeLeft := eo.timeLeft }) }), ?_, rfl, ?_⟩
      · filter_upwards [hres] with n hn
        simp only [tcTurn, if_neg hlt', hget, ok_bind, hn, read_eq hx, read_eq heo, if_pos hg, modify_eq hx,
          pure_eq_ok]
      · exact hs.touch (f := fun x => { x with timeLeft := eo.timeLeft }) hx rfl rfl rfl rfl rfl
    have hquality : base + parsed + 6 ≤ d.len := hok.quality rt x hres hx hg
    by_cases hm : x.metric.toNat > eo.metric.toNat + 1 ∨ x.nlq < d.mem (base + parsed + 5)
    · obtain ⟨g, hrt⟩ := T.not_root hk hx (not_root_of_moves hm)
      obtain ⟨s₁, hdel, hhops, hmove⟩ := hs.move_ends alloc T hrt (hok.move rt x eo hres hx heo hg hm)
      obtain ⟨eo₁, heo₁, hm₁, -⟩ := hhops origin eo heo
      obtain ⟨s₂, hmod, s', hadd, hs', -⟩ := hmove
        (fun x => x.placedUnder origin eo₁ (d.mem (base + parsed + 4)) (d.mem (base + parsed + 5)))
        (fun x => ⟨by rw [← hm₁]; rfl, rfl, rfl⟩)
      refine ⟨.inl (parsed + 8, s'), ?_, rfl, hs'⟩
      filter_upwards [hres, hdel, hadd] with n hn hdel hadd
      simp only [tcTurn, if_neg hlt', hget, ok_bind, hn, read_eq hx, read_eq heo, if_neg hg,
        tcMoves_eq d hquality, hm, decide_true, if_true, hdel, placeUnder_eq alloc d origin heo₁ hquality, hmod, hadd,
        pure_eq_ok]
    refine ⟨.inl (parsed + 8, s), ?_, rfl, hs⟩
    filter_upwards [hres] with n hn
    simp only [tcTurn, if_neg hlt', hget, ok_bind, hn, read_eq hx, read_eq heo, if_neg hg,
      tcMoves_eq d hquality, hm, decide_false, Bool.false_eq_true, if_false, pure_eq_ok]

lemma tcTurn_ok {n : Nat} {y : (Nat × Olsr) ⊕ Olsr} (hs : OriginInv t.2 origin)
    (hlt : t.1 < size) (hn : tcTurn alloc d base size origin n t = .ok y) : TcOk alloc d base origin t := by
  obtain ⟨parsed, s⟩ := t
  obtain ⟨kids, depth, bound, T⟩ := hs.tree
  rw [tcTurn, if_neg (not_le.mpr hlt)] at hn
  obtain ⟨addr, haddr, hn⟩ := bind_eq_ok.mp hn
  obtain ⟨hinside, rfl⟩ := get32_iff.mp haddr
  obtain ⟨res, hres, hn⟩ := bind_eq_ok.mp hn
  have hres := finds_of_ok hres
  refine ⟨hinside, fun hfinds => ?_, fun rt x hfinds hx hg => ?_, fun rt x eo hfinds hx heo hg hm => ?_⟩
  · cases hfinds.unique hres
    cases ha : alloc s.mallocs with
    | false =>
      simp only [Olsr.malloc, ha, Bool.false_eq_true, if_false] at hn
      cases hn
    | true =>
      obtain ⟨s₁, hmalloc, -, -⟩ := malloc_modify alloc ha
      simp only [hmalloc] at hn
      obtain ⟨s₂, -, hn⟩ := bind_eq_ok.mp hn
      obtain ⟨s₃, hplace, -⟩ := bind_eq_ok.mp hn
      exact ⟨rfl, placeUnder_inside hplace⟩
  · cases hfinds.unique hres
    simp only [read_eq hx, ok_bind, if_neg hg] at hn
    obtain ⟨eo, heo, hn⟩ := bind_eq_ok.mp hn
    obtain ⟨moves, hmoves, hn⟩ := bind_eq_ok.mp hn
    by_cases hm : x.metric.toNat > eo.metric.toNat + 1
    · rw [tcMoves, if_pos hm] at hmoves
      cases hmoves
      obtain ⟨s₁, -, hn⟩ := bind_eq_ok.mp hn
      obtain ⟨s₂, hplace, -⟩ := bind_eq_ok.mp hn
      exact placeUnder_inside hplace
    rw [tcMoves, if_neg hm] at hmoves
    obtain ⟨nlq, hnlq, -⟩ := bind_eq_ok.mp hmoves
    exact (get8_iff.mp hnlq).1
  cases hfinds.unique hres
  obtain ⟨k, hk⟩ := T.finds_mem hfinds
  obtain ⟨g, hrt⟩ := T.not_root hk hx (not_root_of_moves hm)
  simp only [read_eq hx, read_eq heo, ok_bind, if_neg hg] at hn
  obtain ⟨moves, hmoves, hn⟩ := bind_eq_ok.mp hn
  have hmoves' : moves = true := tcMoves_true hm hmoves
  rw [hmoves', if_pos rfl] at hn
  obtain ⟨s₁, hdel, hn⟩ := bind_eq_ok.mp hn
  obtain ⟨s', hplace, -⟩ := bind_eq_ok.mp hn
  obtain ⟨eo₁, heo₁, hplace⟩ := bind_eq_ok.mp hplace
  obtain ⟨lq, -, hplace⟩ := bind_eq_ok.mp hplace
  obtain ⟨nlq, -, hplace⟩ := bind_eq_ok.mp hplace
  obtain ⟨s₂, hmod, hadd⟩ := bind_eq_ok.mp hplace
  have hhops : eo₁.metric = eo.metric := T.del_metric hrt hdel heo (read_ok heo₁)
  refine hs.moveOk alloc T hrt ?_ hdel hmod hadd
  intro x
  exact ⟨by rw [← hhops]; rfl, rfl⟩

end Tc

end Vde
