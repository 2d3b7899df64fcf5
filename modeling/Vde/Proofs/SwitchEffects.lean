import Vde.Proofs.MacTable
import Vde.SwitchRun

/-!
# What the functions of the protocol do

The tables are read through cells: the cell of a VLAN and a port holds one bit of each array.
`Effect s s' v g F` says that `s'` differs from `s` only in VLAN `v`, where every cell has been
changed by `g` and the record of `fsttab` by `F`, in hash table entries that have gone and in
packets that have been sent. Every function of `fstp.c` gets one such description.
-/

namespace Vde

open List Function Option

abbrev Cell := Tab → Bool

def Switch.cell (s : Switch) (v p : Nat) : Cell := fun t => s.check t v p

def Tab.ofPorts : Tab → Bool
  | table | bctag | bcuntag | untag | tagged | backup => true
  | notlearning | edge | rcvhist _ => false

def Switch.shape (s : Switch) : Switch :=
  { s with tabs := fun _ _ => none, fsttab := fun _ => none, hash := hashInit 0, sent := [] }

/-! ## Hash tables that lose entries -/

def HashOk (t : HashTable) : Prop := ∃ chain, HashWF t chain

def HashLe (t t' : HashTable) : Prop :=
  HashOk t → HashOk t' ∧ ∀ key e, lookup t' key = some e → lookup t key = some e

lemma HashLe.refl (t : HashTable) : HashLe t t := fun h => ⟨h, fun _ _ he => he⟩

lemma HashLe.trans {t t' t'' : HashTable} (h : HashLe t t') (h' : HashLe t' t'') : HashLe t t'' := by
  intro ht
  obtain ⟨ht', hsub⟩ := h ht
  obtain ⟨ht'', hsub'⟩ := h' ht'
  exact ⟨ht'', fun key e he => hsub key e (hsub' key e he)⟩

lemma hashLe_forAllHash (p : HashData → Bool) (t : HashTable) : HashLe t (forAllHash p t) := by
  rintro ⟨chain, hwf⟩
  refine ⟨⟨_, (forAllHash_wf hwf p).1⟩, fun key e he => ?_⟩
  rw [lookup_forAllHash hwf, filter_eq_some_iff] at he
  exact he.1

/-! ## Effects -/

structure Effect (s s' : Switch) (v : Nat) (g : Nat → Cell → Cell) (F : Vlst → Vlst) : Prop where
  shape : s'.shape = s.shape
  null : ∀ t v', s'.tabs t v' = none ↔ s.tabs t v' = none
  cell : ∀ p, s'.cell v p = g p (s.cell v p)
  other : ∀ v' p, v' ≠ v → s'.cell v' p = s.cell v' p
  fst : s'.fsttab v = (s.fsttab v).map F
  fstOther : ∀ v', v' ≠ v → s'.fsttab v' = s.fsttab v'
  hash : HashLe s.hash s'.hash

def atPort (p : Nat) (b : Cell → Cell) : Nat → Cell → Cell := fun q c => if q = p then b c else c

section

variable {s s' s'' : Switch} {v p : Nat} {g g' : Nat → Cell → Cell} {F F' : Vlst → Vlst}

section

variable (h : s'.shape = s.shape)

include h

lemma portv_of_shape : s'.portv = s.portv := by
  change s'.shape.portv = s.shape.portv
  rw [h]

lemma numports_of_shape : s'.numports = s.numports := by
  change s'.shape.numports = s.shape.numports
  rw [h]

lemma now_of_shape : s'.now = s.now := by
  change s'.shape.now = s.shape.now
  rw [h]

lemma myid_of_shape : s'.myid = s.myid := by
  change s'.shape.myid = s.shape.myid
  rw [h]

lemma untagged_of_shape (v p : Nat) : s'.untagged v p = s.untagged v p := by
  unfold Switch.untagged
  rw [portv_of_shape h]

end

lemma Effect.trans (h : Effect s s' v g F) (h' : Effect s' s'' v g' F') :
    Effect s s'' v (fun q c => g' q (g q c)) (fun f => F' (F f)) where
  shape := h'.shape.trans h.shape
  null t v' := (h'.null t v').trans (h.null t v')
  cell q := by rw [h'.cell, h.cell]
  other v' q hv := (h'.other v' q hv).trans (h.other v' q hv)
  fst := by
    rw [h'.fst, h.fst, Option.map_map]
    rfl
  fstOther v' hv := (h'.fstOther v' hv).trans (h.fstOther v' hv)
  hash := h.hash.trans h'.hash

lemma Effect.congr (h : Effect s s' v g F) (hg : ∀ q, g q (s.cell v q) = g' q (s.cell v q)) : Effect s s' v g' F :=
  { h with cell := fun q => (h.cell q).trans (hg q) }

lemma Effect.transAt {b b' : Cell → Cell} (h : Effect s s' v (atPort p b) F)
    (h' : Effect s' s'' v (atPort p b') F') :
    Effect s s'' v (atPort p (fun c => b' (b c))) (fun f => F' (F f)) := by
  apply (h.trans h').congr
  intro q
  by_cases hq : q = p <;> simp [atPort, hq]

lemma Effect.quiet (hshape : s'.shape = s.shape) (htabs : s'.tabs = s.tabs) (hfst : s'.fsttab = s.fsttab)
    (hhash : s'.hash = s.hash) : Effect s s' v (fun _ c => c) id where
  shape := hshape
  null t v' := by rw [htabs]
  cell q := by
    funext t
    simp only [Switch.cell, Switch.check, htabs]
  other v' q _ := by
    funext t
    simp only [Switch.cell, Switch.check, htabs]
  fst := by rw [hfst, Option.map_id, id]
  fstOther v' _ := by rw [hfst]
  hash := by
    rw [hhash]
    exact HashLe.refl _

lemma Effect.refl (s : Switch) (v : Nat) : Effect s s v (fun _ c => c) id :=
  Effect.quiet rfl rfl rfl rfl

end

lemma check_store (s : Switch) (t t' : Tab) (v v' : Nat) (x : Option BitArray) (p : Nat) :
    (s.store t v x).check t' v' p = if t' = t ∧ v' = v then x.any (fun y => baCheck y p) else s.check t' v' p := by
  unfold Switch.check Switch.store
  by_cases ht : t' = t
  · subst ht
    by_cases hv : v' = v
    · subst hv
      simp
    · simp [hv]
  · simp [ht]

variable {t : Tab}

lemma store_effect {s : Switch} {v : Nat} {x y : BitArray} (hx : s.tabs t v = some x) :
    Effect s (s.store t v (some y)) v (fun q c => update c t (baCheck y q)) id where
  shape := rfl
  null t' v' := by
    unfold Switch.store
    by_cases ht : t' = t
    · subst ht
      by_cases hv : v' = v
      · subst hv
        simp [hx]
      · simp [hv]
    · simp [ht]
  cell q := by
    funext t'
    simp only [Switch.cell, check_store, and_true]
    by_cases ht : t' = t
    · subst ht
      simp
    · simp [ht, Switch.cell]
  other v' q hv := by
    funext t'
    simp [Switch.cell, check_store, hv]
  fst := by
    rw [Option.map_id]
    rfl
  fstOther v' _ := rfl
  hash := HashLe.refl _

lemma check_of_some {s : Switch} {v p : Nat} {x : BitArray} (hx : s.tabs t v = some x) :
    s.check t v p = baCheck x p := by
  simp [Switch.check, hx]

lemma set_effect {s : Switch} {v : Nat} (ht : s.tabs t v ≠ none) (p : Nat) :
    Effect s (s.set t v p) v (atPort p (fun c => update c t true)) id := by
  obtain ⟨x, hx⟩ := ne_none_iff_exists'.mp ht
  have hset : s.set t v p = s.store t v (some (baSet x p)) := by
    simp [Switch.set, hx]
  rw [hset]
  apply (store_effect hx).congr
  intro q
  by_cases hq : q = p
  · simp [atPort, hq]
  simp only [baCheck_baSet, hq, decide_false, Bool.false_or, atPort, if_false]
  rw [← check_of_some hx]
  exact update_eq_self t (s.cell v q)

lemma clr_effect {s : Switch} {v : Nat} (ht : s.tabs t v ≠ none) (p : Nat) :
    Effect s (s.clr t v p) v (atPort p (fun c => update c t false)) id := by
  obtain ⟨x, hx⟩ := ne_none_iff_exists'.mp ht
  have hclr : s.clr t v p = s.store t v (some (baClr x p)) := by
    simp [Switch.clr, hx]
  rw [hclr]
  apply (store_effect hx).congr
  intro q
  by_cases hq : q = p
  · simp [atPort, hq]
  simp only [baCheck_baClr, hq, decide_false, Bool.not_false, Bool.true_and, atPort, if_false]
  rw [← check_of_some hx]
  exact update_eq_self t (s.cell v q)

variable {f : Vlst}

lemma setFst_effect {s : Switch} {v : Nat} (hf : s.fsttab v = some f) {F : Vlst → Vlst}
    {f' : Vlst} (hF : f' = F f) : Effect s (s.setFst v f') v (fun _ c => c) F where
  shape := rfl
  null _ _ := Iff.rfl
  cell _ := rfl
  other _ _ _ := rfl
  fst := by simp [Switch.setFst, hf, hF]
  fstOther v' hv := by simp [Switch.setFst, hv]
  hash := HashLe.refl _

/-! ## VLANs that are in use -/

structure Ready (s : Switch) (v : Nat) : Prop where
  tabs : ∀ t, s.tabs t v ≠ none
  fst : s.fsttab v ≠ none
  ports : ∀ t p, t.ofPorts = true → s.cell v p t = true → (s.portv p).isSome = true
  range : ∀ p, (s.portv p).isSome = true → p < s.numports

section

variable {s s' : Switch} {v p : Nat} {g : Nat → Cell → Cell} {F : Vlst → Vlst}

lemma Ready.effect (h : Ready s v) (he : Effect s s' v g F)
    (hg : ∀ q t, t.ofPorts = true → g q (s.cell v q) t = true → (s.portv q).isSome = true) : Ready s' v where
  tabs t hnone := h.tabs t ((he.null t v).mp hnone)
  fst := by
    rw [he.fst]
    simpa using h.fst
  ports t q ht hq := by
    rw [he.cell] at hq
    rw [portv_of_shape he.shape]
    exact hg q t ht hq
  range q hq := by
    rw [portv_of_shape he.shape] at hq
    rw [numports_of_shape he.shape]
    exact h.range q hq

lemma Ready.effectAt (h : Ready s v) {b : Cell → Cell} (he : Effect s s' v (atPort p b) F)
    (hp : (s.portv p).isSome = true) : Ready s' v := by
  apply h.effect he
  intro q t ht hq
  by_cases hqp : q = p
  · rw [hqp]
    exact hp
  rw [atPort, if_neg hqp] at hq
  exact h.ports t q ht hq

lemma Ready.effectNone (h : Ready s v) (he : Effect s s' v (fun _ c => c) F) : Ready s' v :=
  h.effect he (fun q t => h.ports t q)

lemma Ready.effectOther (h : Ready s v) {v' : Nat} (he : Effect s s' v' g F) (hv : v ≠ v') : Ready s' v where
  tabs t hnone := h.tabs t ((he.null t v).mp hnone)
  fst := by
    rw [he.fstOther v hv]
    exact h.fst
  ports t q ht hq := by
    rw [he.other v q hv] at hq
    rw [portv_of_shape he.shape]
    exact h.ports t q ht hq
  range q hq := by
    rw [portv_of_shape he.shape] at hq
    rw [numports_of_shape he.shape]
    exact h.range q hq

end

/-! Sequences of changes to the bits of one port start from `Effect.start`. -/

section

variable {s s' : Switch} {v p : Nat} {b : Cell → Cell} {F : Vlst → Vlst}

lemma Effect.start (s : Switch) (v p : Nat) : Effect s s v (atPort p id) id := by
  apply (Effect.refl s v).congr
  intro q
  by_cases hq : q = p <;> simp [atPort, hq]

lemma Effect.set (h : Effect s s' v (atPort p b) F) (hr : Ready s v) (t : Tab) :
    Effect s (s'.set t v p) v (atPort p (fun c => update (b c) t true)) F :=
  h.transAt (set_effect (fun hnone => hr.tabs t ((h.null t v).mp hnone)) p)

lemma Effect.clr (h : Effect s s' v (atPort p b) F) (hr : Ready s v) (t : Tab) :
    Effect s (s'.clr t v p) v (atPort p (fun c => update (b c) t false)) F :=
  h.transAt (clr_effect (fun hnone => hr.tabs t ((h.null t v).mp hnone)) p)

lemma Effect.isSome (h : Effect s s' v (atPort p b) F) (hp : (s.portv p).isSome = true) :
    (s'.portv p).isSome = true := by
  rwa [portv_of_shape h.shape]

end

/-! ## Loops over the ports of a VLAN -/

lemma words_congr {s s' : Switch} {v k : Nat}
    (h : ∀ q, q / 64 = k → s'.check t v q = s.check t v q) : s'.words t v k = s.words t v k := by
  have hbit : ∀ s : Switch, ∀ q, s.check t v q = baCheck (s.words t v) q := by
    intro s q
    unfold Switch.check Switch.words
    cases s.tabs t v <;> simp
  apply BitVec.eq_of_getLsbD_eq
  intro j hj
  have hd : (k * 64 + j) / 64 = k := by omega
  have hm : (k * 64 + j) % 64 = j := by omega
  have hq := h (k * 64 + j) hd
  rwa [hbit, hbit, baCheck_eq, baCheck_eq, hd, hm] at hq

lemma foldl_effect {s : Switch} {v : Nat} {body : Nat → Switch → Switch} {b : Nat → Cell → Cell} (hr : Ready s v)
    {l : List Nat} (hl : l.Nodup) (hports : ∀ p ∈ l, (s.portv p).isSome = true)
    (hbody : ∀ s', ∀ p ∈ l, Ready s' v → s'.shape = s.shape → Effect s' (body p s') v (atPort p (b p)) id) :
    Effect s (l.foldl (fun s p => body p s) s) v (fun q c => if q ∈ l then b q c else c) id := by
  induction l generalizing s with
  | nil =>
    apply (Effect.refl s v).congr
    intro q
    simp
  | cons p l ih =>
    obtain ⟨hp, hl⟩ := nodup_cons.mp hl
    have hpp := hports p mem_cons_self
    have hfirst := hbody s p mem_cons_self hr rfl
    have hr' := hr.effectAt hfirst hpp
    have hrest := ih hr' hl
      (fun q hq => by
        rw [portv_of_shape hfirst.shape]
        exact hports q (mem_cons_of_mem p hq))
      (fun s' q hq hs' hshape =>
        hbody s' q (mem_cons_of_mem p hq) hs' (hshape.trans hfirst.shape))
    apply (hfirst.trans hrest).congr
    intro q
    by_cases hqp : q = p
    · subst hqp
      simp [atPort, hp]
    · simp [atPort, hqp]

def Switch.members (t : Tab) (v : Nat) (s : Switch) : List Nat := baMembers (s.words t v) s.numports

lemma nodup_members (t : Tab) (v : Nat) (s : Switch) : (s.members t v).Nodup := nodup_baMembers _ _

lemma mem_members {s : Switch} {v q : Nat} (hr : Ready s v) (ht : t.ofPorts = true) :
    q ∈ s.members t v ↔ s.check t v q = true := by
  obtain ⟨x, hx⟩ := ne_none_iff_exists'.mp (hr.tabs t)
  have hwords : s.words t v = x := by simp [Switch.words, hx]
  rw [Switch.members, mem_baMembers, hwords, wordSizeRound_eq, check_of_some hx]
  constructor
  · exact fun h => h.2
  intro h
  have hlt := hr.range q (hr.ports t q ht (by rw [Switch.cell, check_of_some hx]; exact h))
  exact ⟨by omega, h⟩

lemma forPorts_effect {s : Switch} {v : Nat} (body : Nat → Switch → Switch)
    (b : Nat → Cell → Cell) (hr : Ready s v) (ht : t.ofPorts = true)
    (hbody : ∀ s' p, (s.portv p).isSome = true → Ready s' v → s'.shape = s.shape →
      Effect s' (body p s') v (atPort p (b p)) id) :
    Effect s (s.forPorts t v body) v (fun q c => if c t then b q c else c) id := by
  obtain ⟨x, hx⟩ := ne_none_iff_exists'.mp (hr.tabs t)
  have hports : ∀ q ∈ s.members t v, (s.portv q).isSome = true :=
    fun q hq => hr.ports t q ht ((mem_members hr ht).mp hq)
  have hloop : s.forPorts t v body = (s.members t v).foldl (fun s p => body p s) s := by
    simp only [Switch.forPorts, hx]
    apply baForall_eq (fun s' => Ready s' v ∧ s'.shape = s.shape) ⟨hr, rfl⟩
    · rintro s' p hp ⟨hr', hshape⟩
      have he := hbody s' p (hports p hp) hr' hshape
      exact ⟨hr'.effectAt he (by rw [portv_of_shape hshape]; exact hports p hp),
        he.shape.trans hshape⟩
    rintro s' p hp ⟨hr', hshape⟩ k hk
    have he := hbody s' p (hports p hp) hr' hshape
    apply words_congr
    intro q hq
    have hqp : q ≠ p := by
      rintro rfl
      exact hk hq.symm
    have hcell := congrFun (he.cell q) t
    rwa [atPort, if_neg hqp] at hcell
  rw [hloop]
  apply (foldl_effect hr (nodup_members t v s) hports (fun s' p hp => hbody s' p (hports p hp))).congr
  intro q
  have hmem : q ∈ s.members t v ↔ s.cell v q t = true := mem_members hr ht
  simp only [hmem]

/-! ## The functions of the protocol -/

def statusCell (u : Bool) (status : PortStatus) (c : Cell) : Cell :=
  if c .table then
    match status with
    | .discarding =>
      update (update (update c .notlearning true) .bctag false) .bcuntag
        false
    | .learning =>
      update (update (update c .notlearning false) .bctag false) .bcuntag
        false
    | .forwarding =>
      update (update c .notlearning false) (if u then .bcuntag else .bctag) true
  else c

def Tab.isStatus : Tab → Bool
  | bctag | bcuntag | notlearning => true
  | _ => false

lemma statusCell_other (u : Bool) (status : PortStatus) (c : Cell)
    (ht : t.isStatus = false) : statusCell u status c t = c t := by
  have h1 : t ≠ .bctag := by rintro rfl; simp [Tab.isStatus] at ht
  have h2 : t ≠ .bcuntag := by rintro rfl; simp [Tab.isStatus] at ht
  have h3 : t ≠ .notlearning := by rintro rfl; simp [Tab.isStatus] at ht
  unfold statusCell
  split
  · cases status <;> cases u <;> simp [h1, h2, h3]
  · rfl

lemma portSetStatus_effect {s : Switch} {v p : Nat} (hr : Ready s v) (status : PortStatus) :
    Effect s (portSetStatus p v status s) v (atPort p (statusCell (s.untagged v p) status)) id := by
  unfold portSetStatus
  by_cases htab : s.check .table v p = true
  · have hp := hr.ports .table p rfl htab
    rw [if_pos htab]
    have hcell : ∀ b : Cell → Cell,
        (∀ c, c .table = true → statusCell (s.untagged v p) status c = b c) →
        ∀ q, atPort p b q (s.cell v q) = atPort p (statusCell (s.untagged v p) status) q (s.cell v q) := by
      intro b hb q
      by_cases hq : q = p
      · subst hq
        rw [atPort, atPort, if_pos rfl, if_pos rfl, hb _ htab]
      · simp [atPort, hq]
    have h0 := Effect.start s v p
    cases status with
    | discarding =>
      apply (((h0.set hr .notlearning).clr hr .bctag).clr hr .bcuntag).congr
      apply hcell
      intro c hc
      simp [statusCell, hc]
    | learning =>
      apply (((h0.clr hr .notlearning).clr hr .bctag).clr hr .bcuntag).congr
      apply hcell
      intro c hc
      simp [statusCell, hc]
    | forwarding =>
      have h1 := h0.clr hr .notlearning
      obtain ⟨port, hport⟩ := isSome_iff_exists.mp hp
      have hport1 : (s.clr .notlearning v p).portv p = some port := by
        rw [portv_of_shape h1.shape, hport]
      simp only [hport1]
      by_cases hu : port.vlanuntag = v
      · have hut : s.untagged v p = true := by simp [Switch.untagged, hport, hu]
        rw [if_pos hu]
        apply (h1.set hr .bcuntag).congr
        apply hcell
        intro c hc
        simp [statusCell, hc, hut]
      have hut : s.untagged v p = false := by simp [Switch.untagged, hport, hu]
      rw [if_neg hu]
      apply (h1.set hr .bctag).congr
      apply hcell
      intro c hc
      simp [statusCell, hc, hut]
  · rw [if_neg htab]
    apply (Effect.refl s v).congr
    intro q
    by_cases hq : q = p
    · subst hq
      have hc : s.cell v q .table = false := by simpa [Switch.cell] using htab
      simp [atPort, statusCell, hc]
    · simp [atPort, hq]

def unblockCell (u : Bool) (c : Cell) : Cell :=
  statusCell u .forwarding (update c .backup false)

lemma unblockCell_other (u : Bool) (c : Cell) (ht : t.isStatus = false)
    (hb : t ≠ .backup) : unblockCell u c t = c t := by
  rw [unblockCell, statusCell_other u .forwarding _ ht, update_of_ne hb]

lemma unblock_effect {s : Switch} {v p : Nat} (hr : Ready s v) (hp : (s.portv p).isSome = true) :
    Effect s (unblock v p s) v (atPort p (unblockCell (s.untagged v p))) id := by
  have h1 := clr_effect (hr.tabs .backup) p
  have hr1 := hr.effectAt h1 hp
  have h2 := portSetStatus_effect (p := p) hr1 .forwarding
  rw [untagged_of_shape h1.shape] at h2
  exact h1.transAt h2

def newvlanCell (u : Bool) (c : Cell) : Cell := if c .backup then unblockCell u c else c

lemma newvlanCell_other (u : Bool) (c : Cell) (ht : t.isStatus = false)
    (hb : t ≠ .backup) : newvlanCell u c t = c t := by
  unfold newvlanCell
  split
  · exact unblockCell_other u c ht hb
  · rfl

lemma fstnewvlan_effect {s : Switch} {v : Nat} (hr : Ready s v) :
    Effect s (fstnewvlan v s) v (fun q => newvlanCell (s.untagged v q)) (Vlst.reset s.myid) := by
  obtain ⟨f, hf⟩ := ne_none_iff_exists'.mp hr.fst
  have h1 : Effect s (s.setFst v (f.reset s.myid)) v (fun _ c => c) (Vlst.reset s.myid) :=
    setFst_effect hf rfl
  have h2 := forPorts_effect (t := .backup) (unblock v) (fun q => unblockCell (s.untagged v q))
    (hr.effectNone h1) rfl (by
      intro s' p hp hr' hshape
      have hu := untagged_of_shape (hshape.trans h1.shape) v p
      rw [← hu]
      rw [portv_of_shape h1.shape] at hp
      exact unblock_effect hr' (by rw [portv_of_shape (hshape.trans h1.shape)]; exact hp))
  have hdef : fstnewvlan v s = (s.setFst v (f.reset s.myid)).forPorts .backup v (unblock v) := by
    simp only [fstnewvlan, hf]
  rw [hdef]
  exact h1.trans h2

lemma sendPacketPort_effect {s : Switch} {v p : Nat} (hp : (s.portv p).isSome = true)
    (packet : List UInt8) : Effect s (sendPacketPort p packet s) v (fun _ c => c) id := by
  obtain ⟨port, hport⟩ := isSome_iff_exists.mp hp
  have hsend : sendPacketPort p packet s = { s with sent := s.sent ++ [⟨p, port.ep, packet⟩] } := by
    simp only [sendPacketPort, hport]
  rw [hsend]
  exact Effect.quiet rfl rfl rfl rfl

lemma fstSendbpdu_effect {s : Switch} {v p : Nat} (hr : Ready s v) (hp : (s.portv p).isSome = true)
    (agr tc tcack : Nat) : Effect s (fstSendbpdu v p agr tc tcack s) v (fun _ c => c) id := by
  unfold fstSendbpdu
  obtain ⟨f, hf⟩ := ne_none_iff_exists'.mp hr.fst
  simp only [hf]
  have hsend : ∀ (s' : Switch) (b : Bool) packet, s'.shape = s.shape →
      Effect s' (if b then sendPacketPort p packet s' else s') v (fun _ c => c) id := by
    intro s' b packet hshape
    cases b with
    | true => exact sendPacketPort_effect (by rw [portv_of_shape hshape]; exact hp) packet
    | false => exact Effect.refl s' v
  split
  · have h1 := hsend s (s.check .untag v p) (outpacket p f (stpFlags v p f agr tc tcack s)
      (bpduAge f s.now) s) rfl
    exact h1.trans (hsend _ _ _ h1.shape)
  · exact Effect.refl s v

def HashClear (v : Nat) (t : HashTable) : Prop :=
  ∀ key e, lookup t key = some e → emac2vlan key ≠ BitVec.ofNat 16 v

lemma HashClear.le {v : Nat} {t t' : HashTable} (h : HashClear v t) (hok : HashOk t)
    (hle : HashLe t t') : HashClear v t' :=
  fun key e he => h key e ((hle hok).2 key e he)

lemma hashClear_deleteVlan {v : Nat} {t : HashTable} (hok : HashOk t) : HashClear v (hashDeleteVlan v t) := by
  obtain ⟨chain, hwf⟩ := hok
  intro key e he
  unfold hashDeleteVlan at he
  rw [lookup_forAllHash hwf, filter_eq_some_iff] at he
  obtain ⟨hl, hp⟩ := he
  rw [lookup_dst hwf hl] at hp
  simpa using hp

lemma topologySend_effect {s : Switch} {v : Nat} (hr : Ready s v) (gp : Nat) (t : Tab)
    (ht : t.ofPorts = true) :
    Effect s (s.forPorts t v (fun port s =>
      if designated v gp port s then fstSendbpdu v port 0 1 0 s else s)) v (fun _ c => c) id := by
  have hloop := forPorts_effect (fun port s =>
      if designated v gp port s then fstSendbpdu v port 0 1 0 s else s) (fun _ c => c) hr ht (by
    intro s' p hp hr' hshape
    have hsome : (s'.portv p).isSome = true := by
      rw [portv_of_shape hshape]
      exact hp
    have hsend : Effect s' (if designated v gp p s' then fstSendbpdu v p 0 1 0 s' else s') v
        (fun _ c => c) id := by
      split
      · exact fstSendbpdu_effect hr' hsome 0 1 0
      · exact Effect.refl s' v
    apply hsend.congr
    intro q
    simp [atPort])
  apply hloop.congr
  intro q
  simp

lemma topologyChange_effect {s : Switch} {v : Nat} (hr : Ready s v) (gp : Nat) :
    Effect s (topologyChange v gp s) v (fun _ c => c) (fun f => { f with tctime := s.now }) ∧
      (HashOk s.hash → HashClear v (topologyChange v gp s).hash) := by
  obtain ⟨f, hf⟩ := ne_none_iff_exists'.mp hr.fst
  have h1 : Effect s (s.setFst v { f with tctime := s.now }) v (fun _ c => c)
      (fun f => { f with tctime := s.now }) := setFst_effect hf rfl
  generalize hs1 : s.setFst v { f with tctime := s.now } = s1 at h1
  have h2 : Effect s1 { s1 with hash := hashDeleteVlan v s1.hash } v (fun _ c => c) id := by
    refine ⟨rfl, fun _ _ => Iff.rfl, fun _ => rfl, fun _ _ _ => rfl, ?_, fun _ _ => rfl, ?_⟩
    · rw [Option.map_id]
      rfl
    · exact hashLe_forAllHash _ _
  have hhash : s1.hash = s.hash := by rw [← hs1]; rfl
  generalize hs2 : { s1 with hash := hashDeleteVlan v s1.hash } = s2 at h2
  have hr2 := (hr.effectNone h1).effectNone h2
  have h3 := topologySend_effect hr2 gp .untag rfl
  have h4 := topologySend_effect (hr2.effectNone h3) gp .tagged rfl
  have hdef : topologyChange v gp s = (s2.forPorts .untag v (fun port s =>
      if designated v gp port s then fstSendbpdu v port 0 1 0 s else s)).forPorts .tagged v
        (fun port s => if designated v gp port s then fstSendbpdu v port 0 1 0 s else s) := by
    simp only [topologyChange, hf, ← hs2, ← hs1]
  rw [hdef]
  refine ⟨((h1.trans h2).trans h3).trans h4, fun hok => ?_⟩
  have hclear : HashClear v s2.hash := by
    rw [← hs2]
    dsimp only
    rw [hhash]
    exact hashClear_deleteVlan hok
  have hok2 : HashOk s2.hash := (h2.hash (h1.hash hok).1).1
  exact hclear.le hok2 (h3.hash.trans h4.hash)

def designatedCell (gp q : Nat) (c : Cell) : Bool :=
  q != gp && !c .backup && !c .edge && (c (.rcvhist false) || c (.rcvhist true))

def blockCell (c : Cell) : Cell := update (statusCell false .discarding c) .backup true

def blockLoopCell (t : Tab) (r q : Nat) (c : Cell) : Cell :=
  if c t then (if designatedCell r q c then blockCell c else c) else c

lemma blockLoop_effect {s : Switch} {v : Nat} (hr : Ready s v) (r : Nat) (t : Tab)
    (ht : t.ofPorts = true) :
    Effect s (s.forPorts t v (fun port s =>
      if designated v r port s then
        fstSendbpdu v port 0 0 0 ((portSetStatus port v .discarding s).set .backup v port)
      else s)) v (blockLoopCell t r) id := by
  apply forPorts_effect (fun port s =>
      if designated v r port s then
        fstSendbpdu v port 0 0 0 ((portSetStatus port v .discarding s).set .backup v port)
      else s) (fun q c => if designatedCell r q c then blockCell c else c) hr ht
  intro s' p hp hr' hshape
  have hsome : (s'.portv p).isSome = true := by
    rw [portv_of_shape hshape]
    exact hp
  have hsame : designated v r p s' = designatedCell r p (s'.cell v p) := rfl
  by_cases hd : designated v r p s' = true
  · rw [if_pos hd]
    have h1 := (portSetStatus_effect (p := p) hr' .discarding).set hr' .backup
    have h2 := fstSendbpdu_effect (hr'.effectAt h1 hsome) (h1.isSome hsome) 0 0 0
    apply (h1.trans h2).congr
    intro q
    by_cases hq : q = p
    · subst hq
      rw [hsame] at hd
      simp only [atPort, if_true, hd]
      rfl
    · simp [atPort, hq]
  rw [if_neg hd]
  apply (Effect.refl s' v).congr
  intro q
  by_cases hq : q = p
  · subst hq
    rw [hsame] at hd
    simp [atPort, hd]
  · simp [atPort, hq]

def fastCell (u : Bool) (r q : Nat) (c : Cell) : Cell :=
  atPort r (unblockCell u) q (blockLoopCell .tagged r q (blockLoopCell .untag r q c))

lemma Ready.blockLoop {s s' : Switch} {v : Nat} {r : Nat} (hr : Ready s v)
    (ht : t.ofPorts = true) (he : Effect s s' v (blockLoopCell t r) id) : Ready s' v := by
  apply hr.effect he
  intro q t' ht' hq
  unfold blockLoopCell at hq
  by_cases hc : s.cell v q t = true
  · exact hr.ports t q ht hc
  rw [if_neg hc] at hq
  exact hr.ports t' q ht' hq

lemma fastprotocol_effect {s : Switch} {v r : Nat} (hr : Ready s v) (hp : (s.portv r).isSome = true) :
    Effect s (fastprotocol v r s) v (fastCell (s.untagged v r) r) id := by
  have h1 := blockLoop_effect hr r .untag rfl
  have hr1 := hr.blockLoop rfl h1
  have h2 := blockLoop_effect hr1 r .tagged rfl
  have hr2 := hr1.blockLoop rfl h2
  have hshape2 := h2.shape.trans h1.shape
  have hp2 := portv_of_shape hshape2
  have h3 := unblock_effect (p := r) hr2 (by rw [hp2]; exact hp)
  rw [untagged_of_shape hshape2] at h3
  have hr3 := hr2.effectAt h3 (by rw [hp2]; exact hp)
  have h4 := fstSendbpdu_effect (p := r) hr3 (by rw [portv_of_shape h3.shape, hp2]; exact hp) 1 0 0
  exact (((h1.trans h2).trans h3).trans h4)

def addCell (tagged : Bool) (c : Cell) : Cell := fun t =>
  match t with
  | .tagged => tagged
  | .untag => !tagged
  | .backup | .edge | .rcvhist _ => false
  | t => c t

lemma fstaddport_effect {s : Switch} {v p : Nat} (hr : Ready s v) (hp : (s.portv p).isSome = true)
    (tagged : Bool) :
    Effect s (fstaddport v p tagged s) v (atPort p (addCell tagged))
        (fun f => { f with tctime := s.now }) ∧
      (HashOk s.hash → HashClear v (fstaddport v p tagged s).hash) := by
  have h0 := Effect.start s v p
  have hfirst : ∃ b : Cell → Cell,
      Effect s (if tagged then (s.set .tagged v p).clr .untag v p
        else (s.set .untag v p).clr .tagged v p) v (atPort p b) id ∧
      ∀ c, b c = update (update c .tagged tagged) .untag !tagged := by
    cases tagged with
    | true => exact ⟨_, (h0.set hr .tagged).clr hr .untag, fun _ => rfl⟩
    | false =>
      exact ⟨_, (h0.set hr .untag).clr hr .tagged, fun c => update_comm (by simp) _ _ c⟩
  obtain ⟨b, h1, hb⟩ := hfirst
  have hbits := (((h1.clr hr .backup).clr hr .edge).clr hr (.rcvhist false)).clr hr (.rcvhist true)
  have hrb := hr.effectAt hbits hp
  have hsend := fstSendbpdu_effect hrb (hbits.isSome hp) 0 0 0
  obtain ⟨htop, hclear⟩ := topologyChange_effect (hrb.effectNone hsend) p
  have hall := (hbits.trans hsend).trans htop
  refine ⟨?_, fun hok => hclear ((hbits.trans hsend).hash hok).1⟩
  rw [now_of_shape (hbits.trans hsend).shape] at hall
  apply hall.congr
  intro q
  by_cases hq : q = p
  · simp only [atPort, if_pos hq, hb]
    funext t
    cases t with
    | rcvhist i => cases i <;> simp [addCell]
    | _ => simp [addCell]
  · simp [atPort, hq]

def delCell (c : Cell) : Cell := fun t =>
  match t with
  | .untag | .tagged | .backup | .edge => false
  | t => c t

def delVlst (myid : List UInt8) (now : Int) (p : Nat) (f : Vlst) : Vlst :=
  { (if p = f.rootport then f.reset myid else f) with tctime := now }

/-- What `fstdelport` does to the cells of the VLAN; `root` tells whether its port was the root
port. -/
def delPlane (u : Nat → Bool) (root : Bool) (p q : Nat) (c : Cell) : Cell :=
  if root then newvlanCell (u q) (atPort p delCell q c) else atPort p delCell q c

lemma fstdelport_effect {s : Switch} {v p : Nat} (hr : Ready s v) (hp : (s.portv p).isSome = true)
    (hf : s.fsttab v = some f) :
    Effect s (fstdelport v p s) v (delPlane (s.untagged v) (decide (p = f.rootport)) p) (delVlst s.myid s.now p) ∧
    (HashOk s.hash → HashClear v (fstdelport v p s).hash) := by
  unfold fstdelport
  have h0 := Effect.start s v p
  have hbits := (((h0.clr hr .untag).clr hr .tagged).clr hr .backup).clr hr .edge
  dsimp only
  generalize ((((s.clr .untag v p).clr .tagged v p).clr .backup v p).clr .edge v p) = s4 at *
  have hdel : Effect s s4 v (atPort p delCell) id := by
    apply hbits.congr
    intro q
    by_cases hq : q = p
    · simp only [atPort, if_pos hq]
      funext t
      cases t <;> simp [delCell]
    · simp [atPort, hq]
  have hr4 := hr.effectAt hdel hp
  have hf4 : s4.fsttab v = some f := by
    rw [hbits.fst, hf]
    rfl
  simp only [hf4]
  by_cases hroot : p = f.rootport
  · have h5 := fstnewvlan_effect hr4
    have hr5 : Ready (fstnewvlan v s4) v := by
      apply hr4.effect h5
      intro q t ht hq
      unfold newvlanCell at hq
      split at hq
      · next hb => exact hr4.ports .backup q rfl hb
      · exact hr4.ports t q ht hq
    obtain ⟨h6, hclear⟩ := topologyChange_effect hr5 p
    rw [if_pos hroot]
    refine ⟨?_, fun hok => hclear ((hdel.trans h5).hash hok).1⟩
    have hall := (hdel.trans h5).trans h6
    refine { hall with cell := fun q => ?_, fst := ?_ }
    · rw [hall.cell]
      simp only [delPlane, decide_eq_true hroot, if_true, untagged_of_shape hdel.shape]
    rw [hall.fst, hf, myid_of_shape hdel.shape, now_of_shape (h5.shape.trans hdel.shape)]
    simp [delVlst, hroot]
  obtain ⟨h6, hclear⟩ := topologyChange_effect hr4 p
  rw [if_neg hroot]
  refine ⟨?_, fun hok => hclear (hdel.hash hok).1⟩
  have hall := hdel.trans h6
  refine { hall with cell := fun q => ?_, fst := ?_ }
  · rw [hall.cell]
    simp [delPlane, hroot]
  rw [hall.fst, hf, now_of_shape hdel.shape]
  simp [delVlst, hroot]

/-! ## Timers -/

def rootTimeout (now : Int) (f : Vlst) : Bool :=
  f.rootport ≠ 0 ∧ 3 * helloperiod < (now - f.roottimestamp) % 2 ^ 32

lemma Ready.newvlan {s s' : Switch} {v : Nat} (hr : Ready s v)
    (he : Effect s s' v (fun q => newvlanCell (s.untagged v q)) (Vlst.reset s.myid)) : Ready s' v := by
  apply hr.effect he
  intro q t ht hq
  unfold newvlanCell at hq
  split at hq
  · next hb => exact hr.ports .backup q rfl hb
  · exact hr.ports t q ht hq

lemma forPorts_send {s : Switch} {v : Nat} (hr : Ready s v) (ht : t.ofPorts = true)
    (skip : Nat → Switch → Bool) (packet : Nat → Switch → List UInt8) :
    Effect s (s.forPorts t v (fun p s => if skip p s then s else sendPacketPort p (packet p s) s)) v
      (fun _ c => c) id := by
  have hloop := forPorts_effect
    (fun p s => if skip p s then s else sendPacketPort p (packet p s) s) (fun _ c => c) hr ht (by
      intro s' p hp _ hshape
      have hsend : Effect s' (if skip p s' then s' else sendPacketPort p (packet p s') s') v
          (fun _ c => c) id := by
        split
        · exact Effect.refl s' v
        · exact sendPacketPort_effect (by rwa [portv_of_shape hshape]) _
      apply hsend.congr
      intro q
      simp [atPort])
  apply hloop.congr
  intro q
  simp

lemma fstHelloVlan_effect {s : Switch} {v : Nat} (hr : Ready s v)
    (hf : s.fsttab v = some f) (now : Int) :
    Effect s (fstHelloVlan now v s) v
        (fun q c => if rootTimeout now f then newvlanCell (s.untagged v q) c else c)
        (fun f => if rootTimeout now f then f.reset s.myid else f) ∧
      Ready (fstHelloVlan now v s) v := by
  unfold fstHelloVlan
  simp only [hf]
  -- the reset comes first, then two loops that only send
  have hreset : Effect s (if f.rootport ≠ 0 ∧ 3 * helloperiod < (now - f.roottimestamp) % 2 ^ 32 then
      fstnewvlan v s else s) v
      (fun q c => if rootTimeout now f then newvlanCell (s.untagged v q) c else c)
      (fun f => if rootTimeout now f then f.reset s.myid else f) ∧
      Ready (if f.rootport ≠ 0 ∧ 3 * helloperiod < (now - f.roottimestamp) % 2 ^ 32 then
        fstnewvlan v s else s) v := by
    by_cases ht : rootTimeout now f = true
    · have hcond : f.rootport ≠ 0 ∧ 3 * helloperiod < (now - f.roottimestamp) % 2 ^ 32 := by
        simpa [rootTimeout] using ht
      have he := fstnewvlan_effect hr
      rw [if_pos hcond]
      refine ⟨{ he with cell := fun q => ?_, fst := ?_ }, hr.newvlan he⟩
      · rw [he.cell, if_pos ht]
      · rw [he.fst, hf, map_some, map_some, if_pos ht]
    have hcond : ¬(f.rootport ≠ 0 ∧ 3 * helloperiod < (now - f.roottimestamp) % 2 ^ 32) := by
      simpa [rootTimeout] using ht
    have he := Effect.refl s v
    rw [if_neg hcond]
    refine ⟨{ he with cell := fun q => ?_, fst := ?_ }, hr⟩
    · rw [if_neg ht]
    · rw [hf, map_some, if_neg ht]
  generalize (if f.rootport ≠ 0 ∧ 3 * helloperiod < (now - f.roottimestamp) % 2 ^ 32 then
    fstnewvlan v s else s) = s1 at hreset
  obtain ⟨h1, hr1⟩ := hreset
  obtain ⟨f1, hf1⟩ := ne_none_iff_exists'.mp hr1.fst
  simp only [hf1]
  have h2 := forPorts_send hr1 (t := .untag) rfl (fun p s => s.check .edge v p)
    (fun p s => outpacket p f1 (stpFlags v p f1 1 0 0 s) (bpduAge f1 now) s)
  have hr2 := hr1.effectNone h2
  have h3 := forPorts_send hr2 (t := .tagged) rfl (fun p s => s.check .edge v p)
    (fun p s => outtagpacket v p f1 (stpFlags v p f1 1 0 0 s) (bpduAge f1 now) s)
  exact ⟨(h1.trans h2).trans h3, hr2.effectNone h3⟩

def updateCell (u : Bool) (c : Cell) : Cell :=
  if c .backup then
    if c (.rcvhist false) || c (.rcvhist true) then c else unblockCell u c
  else c

def zapCell (index inRange : Bool) (c : Cell) : Cell :=
  if inRange then update c (.rcvhist index) false else c

lemma fstUpdatebackup_effect {s : Switch} {v : Nat} (hr : Ready s v) (index : Bool) :
    Effect s (fstUpdatebackup index v s) v
        (fun q c => zapCell index (decide (q / 64 < wordSizeRound s.numports))
          (updateCell (s.untagged v q) c)) id ∧
      Ready (fstUpdatebackup index v s) v := by
  have h1 := forPorts_effect (t := .backup)
    (fun p s => if fstpActive v p s then s else unblock v p s)
    (fun q c => if c (.rcvhist false) || c (.rcvhist true) then c else unblockCell (s.untagged v q) c)
    hr rfl (by
      intro s' p hp hr' hshape
      have hsame : fstpActive v p s' =
          (s'.cell v p (.rcvhist false) || s'.cell v p (.rcvhist true)) := rfl
      have hsome : (s'.portv p).isSome = true := by rwa [portv_of_shape hshape]
      rw [hsame]
      split
      · next hact =>
        apply (Effect.refl s' v).congr
        intro q
        by_cases hq : q = p
        · subst hq
          rw [atPort, if_pos rfl, if_pos hact]
        · simp [atPort, hq]
      next hact =>
      have he := unblock_effect hr' hsome
      rw [untagged_of_shape hshape] at he
      apply he.congr
      intro q
      by_cases hq : q = p
      · subst hq
        rw [atPort, atPort, if_pos rfl, if_pos rfl, if_neg hact]
      · simp [atPort, hq])
  have hr1 : Ready (s.forPorts .backup v
      (fun p s => if fstpActive v p s then s else unblock v p s)) v := by
    apply hr.effect h1
    intro q t ht hq
    split at hq
    · next hb => exact hr.ports .backup q rfl hb
    · exact hr.ports t q ht hq
  unfold fstUpdatebackup
  dsimp only
  generalize s.forPorts .backup v
    (fun p s => if fstpActive v p s then s else unblock v p s) = s1 at h1 hr1
  obtain ⟨x, hx⟩ := ne_none_iff_exists'.mp (hr1.tabs (.rcvhist index))
  have h2 : Effect s1 (s1.store (.rcvhist index) v (some (baZap x s1.numports))) v
      (fun q => zapCell index (decide (q / 64 < wordSizeRound s.numports))) id := by
    apply (store_effect hx).congr
    intro q
    rw [baCheck_baZap, ← numports_of_shape h1.shape]
    by_cases hq : q / 64 < wordSizeRound s1.numports
    · simp [zapCell, hq]
    simp only [zapCell, hq, decide_false, Bool.not_false, Bool.true_and, Bool.false_eq_true,
      if_false]
    rw [← check_of_some hx]
    exact update_eq_self _ (s1.cell v q)
  rw [hx, map_some]
  refine ⟨h1.trans h2, hr1.effect h2 ?_⟩
  intro q t ht hq
  apply hr1.ports t q ht
  unfold zapCell at hq
  split at hq
  · cases t with
    | rcvhist i => simp [Tab.ofPorts] at ht
    | _ => simpa using hq
  · exact hq

/-! ## Loops over the VLANs -/

/-- The effect of a loop over the valid VLANs; the change of the cells of a VLAN may depend on the
record that the VLAN had in `fsttab`, and the change of the record on the cells. -/
structure Effects (s s' : Switch) (g : Nat → Option Vlst → Nat → Cell → Cell)
    (F : Nat → (Nat → Cell) → Vlst → Vlst) : Prop where
  shape : s'.shape = s.shape
  null : ∀ t v, s'.tabs t v = none ↔ s.tabs t v = none
  cell : ∀ v p, s'.cell v p = if s.valid v then g v (s.fsttab v) p (s.cell v p) else s.cell v p
  fst : ∀ v, s'.fsttab v = if s.valid v then (s.fsttab v).map (F v (s.cell v)) else s.fsttab v
  hash : HashLe s.hash s'.hash
  ready : ∀ v, s.valid v = true → Ready s' v

structure VlansOk (s : Switch) : Prop where
  card : s.validvlan.WF numOfVlan
  lt : ∀ v, s.valid v = true → v < numOfVlan
  ready : ∀ v, s.valid v = true → Ready s v

lemma validvlan_of_shape {s s' : Switch} (h : s'.shape = s.shape) : s'.validvlan = s.validvlan := by
  change s'.shape.validvlan = s.shape.validvlan
  rw [h]

lemma valid_of_shape {s s' : Switch} (h : s'.shape = s.shape) (v : Nat) : s'.valid v = s.valid v := by
  unfold Switch.valid
  rw [validvlan_of_shape h]

section

variable {s₀ : Switch} {body : Nat → Switch → Switch} {g : Nat → Option Vlst → Nat → Cell → Cell}
  {F : Nat → (Nat → Cell) → Vlst → Vlst}

lemma ready_turn
    (hbody : ∀ s' v, s₀.valid v = true → Ready s' v → s'.shape = s₀.shape →
      Effect s' (body v s') v (g v (s'.fsttab v)) (F v (s'.cell v)) ∧ Ready (body v s') v)
    {s : Switch} (hshape : s.shape = s₀.shape) (hr : ∀ v, s₀.valid v = true → Ready s v) {v : Nat}
    (hv : s₀.valid v = true) : ∀ v', s₀.valid v' = true → Ready (body v s) v' := by
  obtain ⟨he, hrv⟩ := hbody s v hv (hr v hv) hshape
  intro v' hv'
  by_cases hvv : v' = v
  · rw [hvv]
    exact hrv
  · exact (hr v' hv').effectOther he hvv

lemma foldl_effects
    (hbody : ∀ s' v, s₀.valid v = true → Ready s' v → s'.shape = s₀.shape →
      Effect s' (body v s') v (g v (s'.fsttab v)) (F v (s'.cell v)) ∧ Ready (body v s') v)
    {l : List Nat} (hl : l.Nodup) (hvalid : ∀ v ∈ l, s₀.valid v = true)
    {s : Switch} (hshape : s.shape = s₀.shape) (hr : ∀ v, s₀.valid v = true → Ready s v) :
    let s' := l.foldl (fun s v => body v s) s
    s'.shape = s.shape ∧ (∀ t v, s'.tabs t v = none ↔ s.tabs t v = none) ∧
      (∀ v p, s'.cell v p = if v ∈ l then g v (s.fsttab v) p (s.cell v p) else s.cell v p) ∧
      (∀ v, s'.fsttab v = if v ∈ l then (s.fsttab v).map (F v (s.cell v)) else s.fsttab v) ∧
      HashLe s.hash s'.hash ∧ ∀ v, s₀.valid v = true → Ready s' v := by
  induction l generalizing s with
  | nil => simpa using ⟨HashLe.refl _, hr⟩
  | cons v l ih =>
    obtain ⟨hv, hl⟩ := nodup_cons.mp hl
    have hvv := hvalid v mem_cons_self
    obtain ⟨he, -⟩ := hbody s v hvv (hr v hvv) hshape
    obtain ⟨h1, h2, h3, h4, h5, h6⟩ := ih hl
      (fun v' hv' => hvalid v' (mem_cons_of_mem v hv')) (he.shape.trans hshape)
      (ready_turn hbody hshape hr hvv)
    refine ⟨h1.trans he.shape, fun t v' => (h2 t v').trans (he.null t v'), fun v' p => ?_,
      fun v' => ?_, he.hash.trans h5, h6⟩
    · rw [foldl_cons, h3]
      by_cases hne : v' = v
      · subst hne
        simp [hv, he.cell]
      · simp [hne, he.other v' p hne, he.fstOther v' hne]
    rw [foldl_cons, h4]
    by_cases hne : v' = v
    · subst hne
      simp [hv, he.fst]
    have hplane : (body v s).cell v' = s.cell v' := by
      funext p
      exact he.other v' p hne
    simp [hne, he.fstOther v' hne, hplane]

end

lemma forVlans_effects {s : Switch} (hs : VlansOk s) (body : Nat → Switch → Switch)
    (g : Nat → Option Vlst → Nat → Cell → Cell) (F : Nat → (Nat → Cell) → Vlst → Vlst)
    (hbody : ∀ s' v, s.valid v = true → Ready s' v → s'.shape = s.shape →
      Effect s' (body v s') v (g v (s'.fsttab v)) (F v (s'.cell v)) ∧ Ready (body v s') v) :
    Effects s (s.forVlans body) g F := by
  have hmem : ∀ v, v ∈ baMembers s.validvlan.words numOfVlan ↔ s.valid v = true := by
    intro v
    rw [mem_baMembers]
    constructor
    · exact fun h => h.2
    intro h
    have hlt := hs.lt v h
    rw [wordSizeRound_eq]
    unfold numOfVlan at *
    exact ⟨by omega, h⟩
  have hfold : s.forVlans body =
      (baMembers s.validvlan.words numOfVlan).foldl (fun s v => body v s) s := by
    apply bacForall_eq (fun s' => s'.shape = s.shape ∧ ∀ v, s.valid v = true → Ready s' v)
      ⟨rfl, hs.ready⟩ hs.card
    · rintro s' ⟨hshape, -⟩
      rw [validvlan_of_shape hshape]
    rintro s' v ⟨hshape, hr⟩ hv
    have he := (hbody s' v hv (hr v hv) hshape).1
    exact ⟨he.shape.trans hshape, ready_turn hbody hshape hr hv⟩
  obtain ⟨h1, h2, h3, h4, h5, h6⟩ := foldl_effects hbody
    (nodup_baMembers s.validvlan.words numOfVlan) (fun v hv => (hmem v).mp hv) rfl hs.ready
  rw [hfold]
  refine ⟨h1, h2, fun v p => ?_, fun v => ?_, h5, h6⟩
  · rw [h3]
    simp only [hmem]
  rw [h4]
  simp only [hmem]

end Vde
