import Vde.Proofs.OlsrTurns

/-!
# OLSR: receiving a datagram

`olsr_recv` returns exactly if every message that it comes to is one that it can take. What a message needs
is said for the state in which its turn begins, and for the states in which the turns of the loop over its
body begin.
-/

namespace Vde

section Walks

structure Walks (turn : Nat → Nat × Olsr → Except OlsrFault ((Nat × Olsr) ⊕ Olsr)) (len : Int) (origin step : Nat)
    (Ok : Nat × Olsr → Prop) : Prop where
  mono : ∀ t, FuelMono (fun n => turn n t)
  stop : ∀ t n, len ≤ t.1 → turn n t = .ok (.inr t.2)
  ends : ∀ t, OriginInv t.2 origin → t.1 < len → Ok t → ∃ x, Ends (fun n => turn n t) x ∧ TurnKeeps step origin t x
  ok : ∀ t n x, OriginInv t.2 origin → t.1 < len → turn n t = .ok x → Ok t

variable {turn : Nat → Nat × Olsr → Except OlsrFault ((Nat × Olsr) ⊕ Olsr)} {len : Int} {origin step p : Nat}
  {Ok : Nat × Olsr → Prop} {s s' : Olsr} {t u : Nat × Olsr}

section

variable (w : Walks turn len origin step Ok)

include w

lemma Walks.stops (h : len ≤ t.1) : Ends (fun n => turn n t) (.inr t.2) :=
  ends_of_forall (fun n => w.stop t n h)

lemma Walks.turn_keeps (hs : OriginInv t.2 origin) {x : (Nat × Olsr) ⊕ Olsr}
    (h : Ends (fun n => turn n t) x) : TurnKeeps step origin t x := by
  by_cases hlt : t.1 < len
  · obtain ⟨n, hn⟩ := h.exists
    obtain ⟨y, hy, hkeeps⟩ := w.ends t hs hlt (w.ok t n x hs hlt hn)
    rw [h.unique hy]
    exact hkeeps
  rw [h.unique (w.stops (not_lt.mp hlt))]
  exact hs

lemma Walks.visits (hs : OriginInv s origin) (hv : Visits turn (p, s) t) :
    OriginInv t.2 origin ∧ ∃ k, t.1 = p + k * step := by
  apply hv.keeps (P := fun t => OriginInv t.2 origin ∧ ∃ k, t.1 = p + k * step)
  · exact ⟨hs, 0, by simp⟩
  rintro t u - ⟨ht, k, hk⟩ hends
  obtain ⟨hu, hinv⟩ := w.turn_keeps ht hends
  exact ⟨hinv, k + 1, by rw [hu, hk, Nat.add_mul]; omega⟩

/-- The loop ends exactly if each turn gets what it needs, and it leaves at some turn if `parsed` does not
grow. -/
lemma Walks.ends_iff (hs : OriginInv s origin) :
    (∃ s', Ends (fun n => runLoop .hang turn n (p, s)) s') ↔ (∀ t, Visits turn (p, s) t → t.1 < len → Ok t) ∧
    (step = 0 → p < len → ∃ t s', Visits turn (p, s) t ∧ Ends (fun n => turn n t) (.inr s')) := by
  constructor
  · rintro ⟨s', hends⟩
    constructor
    · intro t hv hlt
      obtain ⟨n, x, hn⟩ := hv.turn_ok hends
      exact w.ok t n x (w.visits hs hv).1 hlt hn
    intro _ _
    obtain ⟨t, hv, hl⟩ := (runLoop_ends_iff w.mono).mp hends
    exact ⟨t, s', hv, hl⟩
  rintro ⟨hok, hzero⟩
  obtain ⟨t, s', hv, hl⟩ : ∃ t s', Visits turn (p, s) t ∧ Ends (fun n => turn n t) (.inr s') := by
    by_cases hp : p < len
    · by_cases hstep : step = 0
      · exact hzero hstep hp
      apply exists_leaves_of_measure (fun t => (len - t.1).toNat)
      intro t hv
      have hinv := (w.visits hs hv).1
      by_cases hlt : t.1 < len
      · obtain ⟨x, hx, hkeeps⟩ := w.ends t hinv hlt (hok t hv hlt)
        refine ⟨x, hx, ?_⟩
        rintro u rfl
        obtain ⟨hu, -⟩ := hkeeps
        rw [hu]
        push_cast
        omega
      · exact ⟨_, w.stops (not_lt.mp hlt), by simp⟩
    · exact ⟨(p, s), s, .start, w.stops (not_lt.mp hp)⟩
  exact ⟨s', (runLoop_ends_iff w.mono).mpr ⟨t, hv, hl⟩⟩

lemma Walks.result (hs : OriginInv s origin)
    (h : Ends (fun n => runLoop .hang turn n (p, s)) s') : OriginInv s' origin := by
  obtain ⟨t, hv, hl⟩ := (runLoop_ends_iff w.mono).mp h
  exact w.turn_keeps (w.visits hs hv).1 hl

end

end Walks

section Bodies

variable (alloc : Nat → Bool) (d : Dgram) (base : Nat) (len : Int) (origin : Nat)

lemma mid_walks : Walks (midTurn alloc d base len origin) len origin 4 (MidOk d base origin) where
  mono := midTurn_mono alloc d base len origin
  stop := fun _ _ h => if_pos h
  ends := fun _ hs hlt hok => midTurn_ends alloc d base len origin hs hlt hok
  ok := fun _ _ _ hs hlt hn => midTurn_ok alloc d base len origin hs hlt hn

lemma hello_walks :
    Walks (helloTurn alloc d base len origin) len origin (linkSize d base) (HelloOk alloc d base origin) where
  mono := helloTurn_mono alloc d base len origin
  stop := fun _ _ h => if_pos h
  ends := fun _ hs hlt hok => by
    obtain ⟨x, hx, hkeeps, -⟩ := helloTurn_ends alloc d base len origin hs hlt hok
    exact ⟨x, hx, hkeeps⟩
  ok := fun _ _ _ hs hlt hn => helloTurn_ok alloc d base len origin hs hlt hn

lemma tc_walks : Walks (tcTurn alloc d base len origin) len origin 8 (TcOk alloc d base origin) where
  mono := tcTurn_mono alloc d base len origin
  stop := fun _ _ h => if_pos h
  ends := fun _ hs hlt hok => tcTurn_ends alloc d base len origin hs hlt hok
  ok := fun _ _ _ hs hlt hn => tcTurn_ok alloc d base len origin hs hlt hn

def MidRuns (s : Olsr) : Prop :=
  ∀ t, Visits (midTurn alloc d base len origin) (0, s) t → t.1 < len → MidOk d base origin t

/-- What the body of a HELLO needs. A link of size zero is read again and again until there is no memory. -/
structure HelloRuns (s : Olsr) : Prop where
  turns : ∀ t, Visits (helloTurn alloc d base len origin) (0, s) t → t.1 < len → HelloOk alloc d base origin t
  advance : linkSize d base = 0 → 0 < len → ∃ t, Visits (helloTurn alloc d base len origin) (0, s) t ∧
    Finds t.2 (load32 d.mem (base + 4)) none ∧ alloc t.2.mallocs = false

def TcRuns (s : Olsr) : Prop :=
  ∀ t, Visits (tcTurn alloc d base len origin) (4, s) t → t.1 < len → TcOk alloc d base origin t

variable {s : Olsr}

lemma mid_ends_iff (hs : OriginInv s origin) :
    (∃ s', Ends (fun n => runLoop .hang (midTurn alloc d base len origin) n (0, s)) s') ↔
    MidRuns alloc d base len origin s := by
  rw [(mid_walks alloc d base len origin).ends_iff hs]
  constructor
  · exact fun h => h.1
  · exact fun h => ⟨h, fun h4 => by cases h4⟩

lemma tc_ends_iff (hs : OriginInv s origin) :
    (∃ s', Ends (fun n => runLoop .hang (tcTurn alloc d base len origin) n (4, s)) s') ↔
    TcRuns alloc d base len origin s := by
  rw [(tc_walks alloc d base len origin).ends_iff hs]
  constructor
  · exact fun h => h.1
  · exact fun h => ⟨h, fun h8 => by cases h8⟩

lemma hello_ends_iff (hs : OriginInv s origin) :
    (∃ s', Ends (fun n => runLoop .hang (helloTurn alloc d base len origin) n (0, s)) s') ↔
    HelloRuns alloc d base len origin s := by
  have w := hello_walks alloc d base len origin
  rw [w.ends_iff hs]
  -- with links of size zero every turn is at the beginning of the body
  have hleaves (hturns : ∀ t, Visits (helloTurn alloc d base len origin) (0, s) t → t.1 < len →
      HelloOk alloc d base origin t) (hzero : linkSize d base = 0) (hlen : 0 < len) (t : Nat × Olsr)
      (hv : Visits (helloTurn alloc d base len origin) (0, s) t) :
      (∃ s', Ends (fun n => helloTurn alloc d base len origin n t) (.inr s')) ↔
        Finds t.2 (load32 d.mem (base + 4)) none ∧ alloc t.2.mallocs = false := by
    obtain ⟨hinv, k, hk⟩ := w.visits hs hv
    have ht : t.1 = 0 := by rw [hk, hzero]; simp
    have hlt : t.1 < len := by rw [ht]; exact hlen
    obtain ⟨x, hx, -, hright⟩ := helloTurn_ends alloc d base len origin hinv hlt (hturns t hv hlt)
    rw [ht, Nat.add_zero] at hright
    rw [← hright]
    constructor
    · rintro ⟨s', hs'⟩
      rw [hx.unique hs']
      rfl
    intro hr
    obtain ⟨s', rfl⟩ := Sum.isRight_iff.mp hr
    exact ⟨s', hx⟩
  constructor
  · rintro ⟨hturns, hzero⟩
    refine ⟨hturns, fun h0 hlen => ?_⟩
    obtain ⟨t, s', hv, hl⟩ := hzero h0 hlen
    exact ⟨t, hv, (hleaves hturns h0 hlen t hv).mp ⟨s', hl⟩⟩
  rintro ⟨hturns, hzero⟩
  refine ⟨hturns, fun h0 hlen => ?_⟩
  obtain ⟨t, hv, hl⟩ := hzero h0 hlen
  obtain ⟨s', hs'⟩ := (hleaves hturns h0 hlen t hv).mpr hl
  exact ⟨t, s', hv, hs'⟩

end Bodies

section Handlers

variable (alloc : Nat → Bool) {s s' : Olsr} {kids : Option Nat → List Nat} {depth : Nat → Nat} {bound : Nat}
  {k : Option Nat} {origin n : Nat}

def RepositionOk (s : Olsr) (origin : Nat) : Prop :=
  ∀ eo ancestor, s.entries origin = some eo → Ends (olsrGetEthentry s eo.iface) (some ancestor) →
    eo.metric.toNat > 1 → Thin s.entries origin

lemma reposition_ends (T : TreeShape s kids depth bound) (ho : origin ∈ kids k) (hok : RepositionOk s origin) :
    ∃ s', Ends (fun n => reposition alloc n origin s) s' ∧ OriginInv s' origin := by
  obtain ⟨eo, heo, -, -⟩ := T.child k origin ho
  obtain ⟨res, hres, hmem⟩ := ethentryLoop_ends eo.iface T.roots
  cases res with
  | none =>
    refine ⟨s, ?_, ⟨_, _, _, T⟩, T.hasHop ho⟩
    filter_upwards [hres] with n hn
    simp [reposition, read_eq heo, olsrGetEthentry, hn]
  | some ancestor =>
    by_cases hm : eo.metric.toNat > 1
    · obtain ⟨g, hg⟩ := T.not_root ho heo (.inl (by omega))
      have hs : OriginInv s ancestor := ⟨⟨_, _, _, T⟩, T.hasHop (hmem ancestor rfl)⟩
      have hmove : MoveOk s.entries ancestor origin 1 := ⟨hok eo ancestor heo hres hm, fun _ => le_rfl⟩
      obtain ⟨s₁, hdel, -, hadd⟩ := hs.move_ends alloc T hg hmove
      obtain ⟨s₂, hmod, s', hadd, hs', hhop⟩ :=
        hadd (fun x => { x with gateway := some ancestor, metric := 1 }) (fun x => ⟨rfl, rfl, rfl⟩)
      refine ⟨s', ?_, hs'.tree, hhop⟩
      filter_upwards [hres, hdel, hadd] with n hn hdel hadd
      simp only [reposition, read_eq heo, ok_bind, olsrGetEthentry, hn, if_pos hm, hdel, hmod, hadd]
    refine ⟨s, ?_, ⟨_, _, _, T⟩, T.hasHop ho⟩
    filter_upwards [hres] with n hn
    simp [reposition, read_eq heo, olsrGetEthentry, hn, hm]

lemma repositionOk (T : TreeShape s kids depth bound) (ho : origin ∈ kids k)
    (hn : reposition alloc n origin s = .ok s') : RepositionOk s origin := by
  intro eo ancestor heo hanc hm
  obtain ⟨g, hg⟩ := T.not_root ho heo (.inl (by omega))
  rw [reposition, read_eq heo, ok_bind] at hn
  obtain ⟨res, hres, hn⟩ := bind_eq_ok.mp hn
  cases hanc.unique (FuelMono.ends (fun n m h => ethentryLoop_below _ _ h _) hres)
  simp only [if_pos hm] at hn
  obtain ⟨s₁, hdel, -⟩ := bind_eq_ok.mp hn
  exact T.thin_of_del hg hdel

variable (d : Dgram) (base : Nat) (size : Int)

def KnownTc (eo : OlsrEntry) : Prop := (eo.keptTc (ntohs (load16 d.mem base))).isSome

structure AdvertiseOk (s : Olsr) (origin : Nat) : Prop where
  ansn : base + 2 ≤ d.len
  copy : ∀ eo, s.entries origin = some eo → ¬KnownTc d base eo →
    0 ≤ size ∧ alloc s.mallocs = true ∧ base + size.toNat ≤ d.len

lemma advertise_ends (hs : OriginInv s origin) (hok : AdvertiseOk alloc d base size s origin) :
    ∃ s' b, advertise alloc d base size origin s = .ok (s', b) ∧ OriginInv s' origin := by
  obtain ⟨eo, heo⟩ := hs.hop.entry
  have hansn := get16_iff.mpr ⟨hok.ansn, rfl⟩
  let newAnsn := ntohs (load16 d.mem base)
  let s₀ : Olsr := { s with freshAnsn := if fresher newAnsn s.freshAnsn then newAnsn else s.freshAnsn }
  have hs₀ : OriginInv s₀ origin := hs.of_entries rfl rfl le_rfl
  by_cases hknown : KnownTc d base eo
  · refine ⟨s₀, false, ?_, hs₀⟩
    rw [KnownTc] at hknown
    simp only [advertise, hansn, ok_bind, read_eq heo, if_pos hknown, pure_eq_ok]
    rfl
  obtain ⟨hsize, halloc, hcopy⟩ := hok.copy eo heo hknown
  have hbytes := getBytes_iff.mpr ⟨hcopy, rfl⟩
  let s₁ : Olsr := { s₀ with mallocs := s.mallocs + 1 }
  have hs₁ : OriginInv s₁ origin := hs₀.of_entries rfl rfl (Nat.le_succ _)
  refine ⟨_, true, ?_, hs₁.touch (x := origin)
    (f := fun x => { x with advertisedTc := some (readBytes d.mem base size.toNat), ansn := newAnsn })
    heo rfl rfl rfl rfl rfl⟩
  have hfail : ¬(size < 0 ∨ alloc s.mallocs = false) := by simp [halloc, hsize]
  rw [KnownTc] at hknown
  simp only [advertise, hansn, ok_bind, read_eq heo, if_neg hknown, if_neg hfail, hbytes]
  rw [modify_eq (s := s₁) heo]
  rfl

lemma advertiseOk {b : Bool}
    (h : advertise alloc d base size origin s = .ok (s', b)) : AdvertiseOk alloc d base size s origin := by
  obtain ⟨ansn, hansn, h⟩ := bind_eq_ok.mp h
  obtain ⟨hinside, rfl⟩ := get16_iff.mp hansn
  refine ⟨hinside, fun eo heo hknown => ?_⟩
  rw [KnownTc] at hknown
  simp only [read_eq heo, ok_bind, if_neg hknown] at h
  split at h
  · cases h
  next hfail =>
  obtain ⟨tc, htc, -⟩ := bind_eq_ok.mp h
  refine ⟨by omega, by simpa using (not_or.mp hfail).2, (getBytes_iff.mp htc).1⟩

end Handlers

variable {y : Option OlsrRecv}

section Messages

def OlsrRecv.ttl (r : OlsrRecv) : UInt8 := r.dgram.mem (r.parsed + 8)

def KnownType (r : OlsrRecv) : Prop :=
  r.dgram.mem r.parsed = OLSRMSG_HELLO ∨ r.dgram.mem r.parsed = OLSRMSG_MID ∨ r.dgram.mem r.parsed = OLSRMSG_TC

/-- What the end of a turn needs; `copied` says whether the message is copied. -/
structure CopyOk (r : OlsrRecv) (copied : Prop) : Prop where
  ttl : r.parsed + 9 ≤ r.dgram.len
  copy : copied → r.parsed + r.size ≤ r.dgram.len ∧ r.outsize + r.size ≤ DGRAM_MAX_SIZE

/-- The same place in the datagram, of which no byte before the time to live has changed. -/
structure SameHeader (r r' : OlsrRecv) : Prop where
  parsed : r'.parsed = r.parsed
  len : r'.dgram.len = r.dgram.len
  mem : ∀ i, i < r.parsed + 8 → r'.dgram.mem i = r.dgram.mem i

/-- The same message, with another time to live or number of hops, and nothing copied. -/
structure SameMsg (r r' : OlsrRecv) : Prop extends SameHeader r r' where
  outmsg : r'.outmsg = r.outmsg

variable {r r' : OlsrRecv} {copied : Prop}

lemma SameHeader.size (h : SameHeader r r') : r'.size = r.size := by
  rw [OlsrRecv.size, OlsrRecv.size, load16, load16, h.parsed, h.mem _ (by omega), h.mem _ (by omega)]

lemma sameMsg_set (s : Olsr) {off : Nat} (h : r.parsed + 8 ≤ off) (x : UInt8) :
    SameMsg r { r with olsr := s, dgram := { r.dgram with mem := store8 r.dgram.mem off x } } :=
  ⟨⟨rfl, rfl, fun i hi => store8_outside _ x (.inl (by omega))⟩, rfl⟩

lemma msgSize_iff {n : Nat} : r.msgSize = .ok n ↔ r.parsed + 4 ≤ r.dgram.len ∧ n = r.size := by
  constructor
  · intro h
    obtain ⟨x, hx, h⟩ := bind_eq_ok.mp h
    obtain ⟨hinside, rfl⟩ := get16_iff.mp hx
    cases h
    exact ⟨hinside, rfl⟩
  rintro ⟨hinside, rfl⟩
  rw [OlsrRecv.msgSize, get16_iff.mpr ⟨hinside, rfl⟩]
  rfl

lemma ttl_lowered (x : UInt8) : x - 1 > 0 ↔ x ≠ 1 := by
  rw [gt_iff_lt, UInt8.pos_iff_ne_zero]
  apply not_congr
  constructor
  · intro h
    rw [← UInt8.sub_add_cancel x 1, h]
    rfl
  rintro rfl
  rfl

lemma copyMsg_iff {copied : Bool} : (∃ r', copyMsg copied r = .ok r') ↔ r.parsed + 4 ≤ r.dgram.len ∧
    (copied = true → r.parsed + r.size ≤ r.dgram.len ∧ r.outsize + r.size ≤ DGRAM_MAX_SIZE) := by
  constructor
  · rintro ⟨r', h⟩
    obtain ⟨size, hsize, h⟩ := bind_eq_ok.mp h
    obtain ⟨hinside, rfl⟩ := msgSize_iff.mp hsize
    refine ⟨hinside, fun hcopied => ?_⟩
    rw [if_pos hcopied] at h
    obtain ⟨msg, hbytes, h⟩ := bind_eq_ok.mp h
    split at h
    · next hfits => exact ⟨(getBytes_iff.mp hbytes).1, hfits⟩
    · cases h
  rintro ⟨hinside, hcopy⟩
  rw [copyMsg, msgSize_iff.mpr ⟨hinside, rfl⟩, ok_bind]
  cases copied with
  | false => exact ⟨_, rfl⟩
  | true =>
    obtain ⟨hcopy, hfits⟩ := hcopy rfl
    rw [if_pos rfl, getBytes_iff.mpr ⟨hcopy, rfl⟩, ok_bind, if_pos hfits]
    exact ⟨_, rfl⟩

lemma copyMsg_frame {copied : Bool} (h : copyMsg copied r = .ok r') :
    r'.olsr = r.olsr ∧ r'.parsed = r.parsed + r.size ∧ r'.dgram = r.dgram := by
  obtain ⟨size, hsize, h⟩ := bind_eq_ok.mp h
  obtain ⟨-, rfl⟩ := msgSize_iff.mp hsize
  split at h
  · obtain ⟨msg, -, h⟩ := bind_eq_ok.mp h
    split at h
    · cases h
      exact ⟨rfl, rfl, rfl⟩
    · cases h
  cases h
  exact ⟨rfl, rfl, rfl⟩

lemma olsrForward_ok (h : olsrForward r = .ok r') : r.parsed + 9 ≤ r.dgram.len ∧ ∃ r₁, SameMsg r r₁ ∧ r₁.olsr =
    r.olsr ∧ copyMsg (decide (r.ttl - 1 > 0)) r₁ = .ok r' := by
  obtain ⟨ttl, httl, h⟩ := bind_eq_ok.mp h
  obtain ⟨hinside, rfl⟩ := get8_iff.mp httl
  obtain ⟨d, hd, h⟩ := bind_eq_ok.mp h
  obtain ⟨-, rfl⟩ := set8_iff.mp hd
  exact ⟨hinside, _, sameMsg_set r.olsr le_rfl _, rfl, h⟩

lemma olsrForward_iff : (∃ r', olsrForward r = .ok r') ↔ CopyOk r (r.ttl ≠ 1) := by
  constructor
  · rintro ⟨r', h⟩
    obtain ⟨hinside, r₁, hmsg, -, h⟩ := olsrForward_ok h
    obtain ⟨-, hcopy⟩ := copyMsg_iff.mp ⟨r', h⟩
    rw [hmsg.parsed, hmsg.len, hmsg.size, OlsrRecv.outsize, hmsg.outmsg] at hcopy
    exact ⟨hinside, fun hcopied => hcopy (decide_eq_true ((ttl_lowered _).mpr hcopied))⟩
  rintro ⟨hinside, hcopy⟩
  have httl := get8_iff.mpr ⟨show r.parsed + 8 < r.dgram.len from hinside, rfl⟩
  have hset := (set8_iff (x := r.ttl - 1)).mpr ⟨show r.parsed + 8 < r.dgram.len from hinside, rfl⟩
  have hmsg := sameMsg_set (r := r) r.olsr (le_refl (r.parsed + 8)) (r.ttl - 1)
  rw [olsrForward, httl, ok_bind]
  rw [OlsrRecv.ttl] at hset
  rw [hset, ok_bind]
  apply copyMsg_iff.mpr
  refine ⟨show r.parsed + 4 ≤ r.dgram.len by omega, fun hcopied => ?_⟩
  have hcopied : r.ttl ≠ 1 := (ttl_lowered _).mp (of_decide_eq_true hcopied)
  rw [OlsrRecv.ttl] at hmsg
  rw [hmsg.size]
  exact hcopy hcopied

lemma olsrForward_frame (h : olsrForward r = .ok r') : r'.olsr = r.olsr ∧ r'.parsed = r.parsed + r.size ∧
    r'.dgram.len = r.dgram.len ∧ ∀ i, i < r.parsed + 8 → r'.dgram.mem i = r.dgram.mem i := by
  obtain ⟨-, r₁, hmsg, holsr, h⟩ := olsrForward_ok h
  obtain ⟨holsr', hparsed, hdgram⟩ := copyMsg_frame h
  refine ⟨holsr'.trans holsr, by rw [hparsed, hmsg.parsed, hmsg.size], by rw [hdgram, hmsg.len], fun i hi => ?_⟩
  rw [hdgram, hmsg.mem i hi]

variable (alloc : Nat → Bool) (origin : Nat)

/-- What the handling of a message from a known originator needs. A HELLO and a TC that brings nothing new get
the time to live zero, and are copied. -/
structure HandleOk (r : OlsrRecv) : Prop where
  hello : r.dgram.mem r.parsed = OLSRMSG_HELLO → RepositionOk r.olsr origin ∧
    (∀ s, Ends (fun n => reposition alloc n origin r.olsr) s →
      HelloRuns alloc r.dgram (r.parsed + 16) ((r.size : Int) - 16) origin s) ∧ CopyOk r True
  mid : r.dgram.mem r.parsed = OLSRMSG_MID →
    (((r.size : Int) - 12) % 4 = 0 →
      MidRuns alloc r.dgram (r.parsed + 12) ((r.size : Int) - 12) origin r.olsr) ∧ CopyOk r (r.ttl ≠ 1)
  tc : r.dgram.mem r.parsed = OLSRMSG_TC →
    AdvertiseOk alloc r.dgram (r.parsed + 12) ((r.size : Int) - 12) r.olsr origin ∧
    ∀ s b, advertise alloc r.dgram (r.parsed + 12) ((r.size : Int) - 12) origin r.olsr = .ok (s, b) →
      (b = true → TcRuns alloc r.dgram (r.parsed + 12) ((r.size : Int) - 12) origin s) ∧
        CopyOk r (b = false ∨ r.ttl ≠ 1)

variable {alloc origin}

lemma CopyOk.of_same {copied' : Prop} (h : SameMsg r r') (hc : copied' → copied) (hok : CopyOk r copied) :
    CopyOk r' copied' := by
  refine ⟨by rw [h.parsed, h.len]; exact hok.ttl, fun hcopied => ?_⟩
  rw [h.parsed, h.len, h.size, OlsrRecv.outsize, h.outmsg]
  exact hok.copy (hc hcopied)

lemma SameMsg.symm_copy {copied' : Prop} (h : SameMsg r r') (hc : copied → copied') (hok : CopyOk r' copied') :
    CopyOk r copied := by
  refine ⟨by rw [← h.parsed, ← h.len]; exact hok.ttl, fun hcopied => ?_⟩
  have hcopy := hok.copy (hc hcopied)
  rw [h.parsed, h.len, h.size, OlsrRecv.outsize, h.outmsg] at hcopy
  exact hcopy

lemma hello_ne_mid : OLSRMSG_HELLO ≠ OLSRMSG_MID := by decide

lemma hello_ne_tc : OLSRMSG_HELLO ≠ OLSRMSG_TC := by decide

lemma mid_ne_tc : OLSRMSG_MID ≠ OLSRMSG_TC := by decide

inductive HandleCase (alloc : Nat → Bool) (n origin : Nat) (r : OlsrRecv) : Option OlsrRecv → Prop
  | hello {s₁ s : Olsr} : r.dgram.mem r.parsed = OLSRMSG_HELLO → reposition alloc n origin r.olsr = .ok s₁ →
      recvHello alloc r.dgram (r.parsed + 16) n ((r.size : Int) - 16) (some origin) s₁ = .ok s →
      HandleCase alloc n origin r
        (some { r with olsr := s, dgram := { r.dgram with mem := store8 r.dgram.mem (r.parsed + 8) 0 } })
  | mid {s : Olsr} : r.dgram.mem r.parsed = OLSRMSG_MID →
      recvMid alloc r.dgram (r.parsed + 12) n ((r.size : Int) - 12) origin r.olsr = .ok s →
      HandleCase alloc n origin r (some { r with olsr := s })
  | knownTc {s : Olsr} : r.dgram.mem r.parsed = OLSRMSG_TC →
      reconsiderTopology alloc r.dgram (r.parsed + 12) n ((r.size : Int) - 12) origin r.olsr = .ok (s, false) →
      HandleCase alloc n origin r
        (some { r with olsr := s, dgram := { r.dgram with mem := store8 r.dgram.mem (r.parsed + 8) 0 } })
  | newTc {s : Olsr} {eo : OlsrEntry} : r.dgram.mem r.parsed = OLSRMSG_TC →
      reconsiderTopology alloc r.dgram (r.parsed + 12) n ((r.size : Int) - 12) origin r.olsr = .ok (s, true) →
      s.entries origin = some eo →
      HandleCase alloc n origin r (some { r with
        olsr := s
        dgram := { r.dgram with mem := store8 r.dgram.mem (r.parsed + 9) (UInt8.ofNat eo.metric.toNat) } })
  | unknown : ¬KnownType r → HandleCase alloc n origin r none

lemma olsrHandle_cases {n : Nat} (h : olsrHandle alloc n origin r = .ok y) : HandleCase alloc n origin r y := by
  obtain ⟨type, htype, h⟩ := bind_eq_ok.mp h
  obtain ⟨-, rfl⟩ := get8_iff.mp htype
  split at h
  · next htype =>
    obtain ⟨s₁, h₁, h⟩ := bind_eq_ok.mp h
    obtain ⟨size, hsize, h⟩ := bind_eq_ok.mp h
    obtain ⟨-, rfl⟩ := msgSize_iff.mp hsize
    obtain ⟨s₂, h₂, h⟩ := bind_eq_ok.mp h
    obtain ⟨d, hd, h⟩ := bind_eq_ok.mp h
    obtain ⟨-, rfl⟩ := set8_iff.mp hd
    cases h
    exact .hello htype h₁ h₂
  next hhello =>
  split at h
  · next htype =>
    obtain ⟨size, hsize, h⟩ := bind_eq_ok.mp h
    obtain ⟨-, rfl⟩ := msgSize_iff.mp hsize
    obtain ⟨s₁, h₁, h⟩ := bind_eq_ok.mp h
    cases h
    exact .mid htype h₁
  next hmid =>
  split at h
  · next htype =>
    obtain ⟨size, hsize, h⟩ := bind_eq_ok.mp h
    obtain ⟨-, rfl⟩ := msgSize_iff.mp hsize
    obtain ⟨⟨s₁, b⟩, h₁, h⟩ := bind_eq_ok.mp h
    cases b with
    | false =>
      obtain ⟨d, hd, h⟩ := bind_eq_ok.mp h
      obtain ⟨-, rfl⟩ := set8_iff.mp hd
      cases h
      exact .knownTc htype h₁
    | true =>
      obtain ⟨eo, heo, h⟩ := bind_eq_ok.mp h
      obtain ⟨d, hd, h⟩ := bind_eq_ok.mp h
      obtain ⟨-, rfl⟩ := set8_iff.mp hd
      cases h
      exact .newTc htype h₁ (read_ok heo)
  next htc =>
  cases h
  apply HandleCase.unknown
  simp [KnownType, hhello, hmid, htc]

structure Handled (r r' : OlsrRecv) : Prop where
  known : KnownType r
  tree : r'.olsr.IsTree
  same : SameMsg r r'
  copy : CopyOk r' (r'.ttl ≠ 1)

section

variable {kids : Option Nat → List Nat} {depth : Nat → Nat} {bound : Nat} {k : Option Nat}
  (T : TreeShape r.olsr kids depth bound) (ho : origin ∈ kids k) (h8 : r.parsed + 8 ≤ r.dgram.len)

include T ho h8

lemma handle_hello (htype : r.dgram.mem r.parsed = OLSRMSG_HELLO) (hok : HandleOk alloc origin r) : ∃ r',
    Ends (fun n => olsrHandle alloc n origin r) (some r') ∧ Handled r r' := by
  obtain ⟨hrepo, hruns, hcopy⟩ := hok.hello htype
  have hget := get8_iff.mpr ⟨show r.parsed < r.dgram.len by omega, rfl⟩
  have hsize := msgSize_iff.mpr ⟨show r.parsed + 4 ≤ r.dgram.len by omega, rfl⟩
  have hset := (set8_iff (x := 0)).mpr ⟨show r.parsed + 8 < r.dgram.len from hcopy.ttl, rfl⟩
  obtain ⟨s₁, hrends, hs₁⟩ := reposition_ends alloc T ho hrepo
  obtain ⟨s₂, hloop⟩ := (hello_ends_iff alloc r.dgram (r.parsed + 16) _ origin hs₁).mpr (hruns s₁ hrends)
  have hs₂ := (hello_walks alloc r.dgram (r.parsed + 16) ((r.size : Int) - 16) origin).result hs₁ hloop
  have hsame := sameMsg_set (r := r) s₂ (le_refl (r.parsed + 8)) 0
  refine ⟨_, ?_, .inl htype, hs₂.tree, hsame, hcopy.of_same hsame (fun _ => trivial)⟩
  filter_upwards [hrends, hloop] with n hrends hloop
  simp only [olsrHandle, hget, ok_bind, if_pos htype, hrends, hsize, recvHello, hloop, hset, pure_eq_ok]

lemma handle_mid (htype : r.dgram.mem r.parsed = OLSRMSG_MID) (hok : HandleOk alloc origin r) : ∃ r',
    Ends (fun n => olsrHandle alloc n origin r) (some r') ∧ Handled r r' := by
  obtain ⟨hruns, hcopy⟩ := hok.mid htype
  have hget := get8_iff.mpr ⟨show r.parsed < r.dgram.len by omega, rfl⟩
  have hsize := msgSize_iff.mpr ⟨show r.parsed + 4 ≤ r.dgram.len by omega, rfl⟩
  have hs : OriginInv r.olsr origin := ⟨⟨_, _, _, T⟩, T.hasHop ho⟩
  obtain ⟨s₁, hmid, hs₁⟩ : ∃ s₁, Ends (fun n => recvMid alloc r.dgram (r.parsed + 12) n ((r.size : Int) - 12) origin
      r.olsr) s₁ ∧ OriginInv s₁ origin := by
    by_cases hwords : ((r.size : Int) - 12) % 4 = 0
    · obtain ⟨s₁, hloop⟩ := (mid_ends_iff alloc r.dgram (r.parsed + 12) _ origin hs).mpr (hruns hwords)
      refine ⟨s₁, ?_, (mid_walks alloc r.dgram (r.parsed + 12) _ origin).result hs hloop⟩
      filter_upwards [hloop] with n hloop
      rw [recvMid, if_neg (not_not.mpr hwords), hloop]
    · exact ⟨r.olsr, ends_of_forall (fun n => if_pos hwords), hs⟩
  refine ⟨{ r with olsr := s₁ }, ?_, .inr (.inl htype), hs₁.tree, ⟨⟨rfl, rfl, fun _ _ => rfl⟩, rfl⟩,
    hcopy.ttl, hcopy.copy⟩
  filter_upwards [hmid] with n hmid
  have hne : r.dgram.mem r.parsed ≠ OLSRMSG_HELLO := by rw [htype]; exact hello_ne_mid.symm
  simp only [olsrHandle, hget, ok_bind, if_neg hne, if_pos htype, hsize, hmid, pure_eq_ok]

lemma handle_tc (htype : r.dgram.mem r.parsed = OLSRMSG_TC) (hok : HandleOk alloc origin r) : ∃ r',
    Ends (fun n => olsrHandle alloc n origin r) (some r') ∧ Handled r r' := by
  obtain ⟨hadv, hruns⟩ := hok.tc htype
  have hget := get8_iff.mpr ⟨show r.parsed < r.dgram.len by omega, rfl⟩
  have hsize := msgSize_iff.mpr ⟨show r.parsed + 4 ≤ r.dgram.len by omega, rfl⟩
  have hs : OriginInv r.olsr origin := ⟨⟨_, _, _, T⟩, T.hasHop ho⟩
  have hne : r.dgram.mem r.parsed ≠ OLSRMSG_HELLO := by rw [htype]; exact hello_ne_tc.symm
  have hne' : r.dgram.mem r.parsed ≠ OLSRMSG_MID := by rw [htype]; exact mid_ne_tc.symm
  obtain ⟨s₁, b, hadvertise, hs₁⟩ := advertise_ends alloc _ _ _ hs hadv
  obtain ⟨htc, hcopy⟩ := hruns s₁ b hadvertise
  have hinside : r.parsed + 12 + 2 ≤ r.dgram.len := hadv.ansn
  cases b with
  | false =>
    have hset := (set8_iff (x := 0)).mpr ⟨show r.parsed + 8 < r.dgram.len by omega, rfl⟩
    have hsame := sameMsg_set (r := r) s₁ (le_refl (r.parsed + 8)) 0
    refine ⟨_, ends_of_forall (fun n => ?_), .inr (.inr htype), hs₁.tree, hsame,
      hcopy.of_same hsame (fun _ => .inl rfl)⟩
    simp only [olsrHandle, hget, ok_bind, if_neg hne, if_neg hne', if_pos htype, hsize, reconsiderTopology,
      hadvertise, pure_eq_ok, hset]
  | true =>
    obtain ⟨s₂, hloop⟩ := (tc_ends_iff alloc r.dgram (r.parsed + 12) _ origin hs₁).mpr (htc rfl)
    have hs₂ := (tc_walks alloc r.dgram (r.parsed + 12) _ origin).result hs₁ hloop
    obtain ⟨eo, heo⟩ := hs₂.hop.entry
    have hset := (set8_iff (x := UInt8.ofNat eo.metric.toNat)).mpr
      ⟨show r.parsed + 9 < r.dgram.len by omega, rfl⟩
    have hsame := sameMsg_set (r := r) s₂ (Nat.le_succ (r.parsed + 8)) (UInt8.ofNat eo.metric.toNat)
    have httl : store8 r.dgram.mem (r.parsed + 9) (UInt8.ofNat eo.metric.toNat) (r.parsed + 8) = r.ttl :=
      store8_outside _ _ (.inl (by omega))
    refine ⟨_, ?_, .inr (.inr htype), hs₂.tree, hsame, hcopy.of_same hsame (fun h => .inr ?_)⟩
    · filter_upwards [hloop] with n hloop
      simp only [olsrHandle, hget, ok_bind, if_neg hne, if_neg hne', if_pos htype, hsize, reconsiderTopology,
        hadvertise, hloop, pure_eq_ok, read_eq heo, hset]
    rw [← httl]
    exact h

end

lemma cleared_ne_one (mem : Mem) (off : Nat) : store8 mem off 0 off ≠ 1 := by
  rw [store8_same]
  decide

lemma handleOk {kids : Option Nat → List Nat} {depth : Nat → Nat} {bound n : Nat} {k : Option Nat}
    (T : TreeShape r.olsr kids depth bound) (ho : origin ∈ kids k) (hn : olsrHandle alloc n origin r = .ok y)
    (hcopy : ∀ r', y = some r' → CopyOk r' (r'.ttl ≠ 1)) : HandleOk alloc origin r := by
  have hs : OriginInv r.olsr origin := ⟨⟨_, _, _, T⟩, T.hasHop ho⟩
  cases olsrHandle_cases hn with
  | @hello s₁ s₂ htype h₁ h₂ =>
    refine ⟨fun _ => ?_, fun hmid => ?_, fun htc => ?_⟩
    · have hrepo := repositionOk alloc T ho h₁
      refine ⟨hrepo, fun s hends => ?_, ?_⟩
      · cases hends.unique (FuelMono.ends (fun _ _ h => reposition_below alloc h _ _) h₁)
        obtain ⟨s₁', hends', hs₁⟩ := reposition_ends alloc T ho hrepo
        cases hends.unique hends'
        exact (hello_ends_iff _ _ _ _ _ hs₁).mp ⟨s₂, runLoop_ends_of_ok (helloTurn_mono _ _ _ _ _) h₂⟩
      have hsame := sameMsg_set (r := r) s₂ (le_refl (r.parsed + 8)) 0
      exact hsame.symm_copy (fun _ => cleared_ne_one _ _) (hcopy _ rfl)
    · exact absurd (htype.symm.trans hmid) hello_ne_mid
    · exact absurd (htype.symm.trans htc) hello_ne_tc
  | @mid s₁ htype h₁ =>
    refine ⟨fun hhello => ?_, fun _ => ⟨fun hwords => ?_, ?_⟩, fun htc => ?_⟩
    · exact absurd (hhello.symm.trans htype) hello_ne_mid
    · rw [recvMid, if_neg (not_not.mpr hwords)] at h₁
      exact (mid_ends_iff _ _ _ _ _ hs).mp ⟨s₁, runLoop_ends_of_ok (midTurn_mono _ _ _ _ _) h₁⟩
    · have hok := hcopy _ rfl
      exact ⟨hok.ttl, hok.copy⟩
    · exact absurd (htype.symm.trans htc) mid_ne_tc
  | @knownTc s₂ htype h₂ =>
    refine ⟨fun hhello => ?_, fun hmid => ?_, fun _ => ?_⟩
    · exact absurd (hhello.symm.trans htype) hello_ne_tc
    · exact absurd (hmid.symm.trans htype) mid_ne_tc
    obtain ⟨⟨s₁, b⟩, h₁, h₂⟩ := bind_eq_ok.mp h₂
    refine ⟨advertiseOk alloc _ _ _ h₁, fun s b' hadvertise => ?_⟩
    rw [h₁] at hadvertise
    cases hadvertise
    cases b with
    | false =>
      have hsame := sameMsg_set (r := r) s₂ (le_refl (r.parsed + 8)) 0
      exact ⟨nofun, hsame.symm_copy (fun _ => cleared_ne_one _ _) (hcopy _ rfl)⟩
    | true =>
      obtain ⟨s₃, _, h₂⟩ := bind_eq_ok.mp h₂
      cases h₂
  | @newTc s₂ eo htype h₂ heo =>
    refine ⟨fun hhello => ?_, fun hmid => ?_, fun _ => ?_⟩
    · exact absurd (hhello.symm.trans htype) hello_ne_tc
    · exact absurd (hmid.symm.trans htype) mid_ne_tc
    obtain ⟨⟨s₁, b⟩, h₁, h₂⟩ := bind_eq_ok.mp h₂
    have hadv := advertiseOk alloc _ _ _ h₁
    refine ⟨hadv, fun s b' hadvertise => ?_⟩
    rw [h₁] at hadvertise
    cases hadvertise
    obtain ⟨s₁', b', hadvertise, hs₁⟩ := advertise_ends alloc _ _ _ hs hadv
    rw [h₁] at hadvertise
    cases hadvertise
    cases b with
    | false => cases h₂
    | true =>
      obtain ⟨s₃, h₃, h₂⟩ := bind_eq_ok.mp h₂
      cases h₂
      have hsame := sameMsg_set (r := r) s₂ (Nat.le_succ (r.parsed + 8)) (UInt8.ofNat eo.metric.toNat)
      refine ⟨fun _ => ?_, hsame.symm_copy (fun h => ?_) (hcopy _ rfl)⟩
      · exact (tc_ends_iff _ _ _ _ _ hs₁).mp ⟨s₂, runLoop_ends_of_ok (tcTurn_mono _ _ _ _ _) h₃⟩
      have httl : store8 r.dgram.mem (r.parsed + 9) (UInt8.ofNat eo.metric.toNat) (r.parsed + 8) = r.ttl :=
        store8_outside _ _ (.inl (by omega))
      have hne : r.ttl ≠ 1 := h.resolve_left (by simp)
      rw [← httl] at hne
      exact hne
  | unknown hunknown =>
    exact ⟨fun h => absurd (.inl h) hunknown, fun h => absurd (.inr (.inl h)) hunknown,
      fun h => absurd (.inr (.inr h)) hunknown⟩

lemma frame_of_some (hknown : KnownType r) (hsame : SameMsg r r') :
    (KnownType r ↔ some r' ≠ none) ∧ ∀ r'', some r' = some r'' → SameMsg r r'' := by
  refine ⟨iff_of_true hknown (Option.some_ne_none r'), ?_⟩
  rintro r'' ⟨⟩
  exact hsame

lemma olsrHandle_frame {n : Nat} (hn : olsrHandle alloc n origin r = .ok y) :
    (KnownType r ↔ y ≠ none) ∧ ∀ r', y = some r' → SameMsg r r' := by
  cases olsrHandle_cases hn with
  | hello htype => exact frame_of_some (.inl htype) (sameMsg_set _ le_rfl 0)
  | mid htype => exact frame_of_some (.inr (.inl htype)) ⟨⟨rfl, rfl, fun _ _ => rfl⟩, rfl⟩
  | knownTc htype => exact frame_of_some (.inr (.inr htype)) (sameMsg_set _ le_rfl 0)
  | newTc htype => exact frame_of_some (.inr (.inr htype)) (sameMsg_set _ (Nat.le_succ _) _)
  | unknown hunknown => exact ⟨by simp [hunknown], nofun⟩

end Messages

section Recv

def OlsrRecv.orig (r : OlsrRecv) : BitVec 32 := load32 r.dgram.mem (r.parsed + 4)

structure MsgOk (alloc : Nat → Bool) (r : OlsrRecv) : Prop where
  header : r.parsed + 8 ≤ r.dgram.len
  advance : Finds r.olsr r.orig none ∨ KnownType r → r.size ≠ 0
  known : ∀ origin r', Finds r.olsr r.orig (some origin) → heardFrom origin r = .ok r' → HandleOk alloc origin r'

variable {alloc : Nat → Bool} {r r' u : OlsrRecv} {origin : Nat}

lemma heardFrom_tree {kids : Option Nat → List Nat} {depth : Nat → Nat} {bound : Nat} {k : Option Nat}
    (T : TreeShape r.olsr kids depth bound) (ho : origin ∈ kids k) (h8 : r.parsed + 8 ≤ r.dgram.len) :
    ∃ s, heardFrom origin r = .ok { r with olsr := s } ∧ TreeShape s kids depth bound := by
  obtain ⟨eo, heo, -, -⟩ := T.child k origin ho
  have hvtime := get8_iff.mpr ⟨show r.parsed + 1 < r.dgram.len by omega, rfl⟩
  refine ⟨_, ?_, T.touch (x := origin)
    (f := fun e => { e with linkType := OLSRLINK_MPR, timeLeft := olsr2seconds (r.dgram.mem (r.parsed + 1)) })
    heo rfl rfl rfl rfl rfl⟩
  rw [heardFrom, hvtime, ok_bind, modify_eq heo]
  rfl

lemma msgTurn_cases {n : Nat} {x : OlsrRecv ⊕ (OlsrRecv × Bool)} (hlt : r.parsed < r.dgram.len)
    (hn : msgTurn alloc n r = .ok x) :
    r.parsed + 8 ≤ r.dgram.len ∧
      ((Finds r.olsr r.orig none ∧
          x = .inl { r with olsr := arpStorm r.orig r.olsr, parsed := r.parsed + r.size }) ∨
        ∃ origin r₁ y, Finds r.olsr r.orig (some origin) ∧ heardFrom origin r = .ok r₁ ∧
          olsrHandle alloc n origin r₁ = .ok y ∧
          ((y = none ∧ x = .inr (r₁, false)) ∨ ∃ r₂ r₃, y = some r₂ ∧ olsrForward r₂ = .ok r₃ ∧ x = .inl r₃)) := by
  rw [msgTurn, if_neg (by omega)] at hn
  obtain ⟨orig, horig, hn⟩ := bind_eq_ok.mp hn
  obtain ⟨hinside, rfl⟩ := get32_iff.mp horig
  obtain ⟨res, hres, hn⟩ := bind_eq_ok.mp hn
  have hfinds : Finds r.olsr r.orig res := finds_of_ok hres
  refine ⟨hinside, ?_⟩
  cases res with
  | none =>
    obtain ⟨size, hsize, hn⟩ := bind_eq_ok.mp hn
    obtain ⟨-, rfl⟩ := msgSize_iff.mp hsize
    cases hn
    exact .inl ⟨hfinds, rfl⟩
  | some origin =>
    obtain ⟨r₁, h₁, hn⟩ := bind_eq_ok.mp hn
    obtain ⟨y, hy, hn⟩ := bind_eq_ok.mp hn
    refine .inr ⟨origin, r₁, y, hfinds, h₁, hy, ?_⟩
    cases y with
    | none =>
      cases hn
      exact .inl ⟨rfl, rfl⟩
    | some r₂ =>
      obtain ⟨r₃, h₃, hn⟩ := bind_eq_ok.mp hn
      cases hn
      exact .inr ⟨r₂, r₃, rfl, h₃, rfl⟩

lemma heardFrom_same (h : heardFrom origin r = .ok r') : SameMsg r r' := by
  obtain ⟨vtime, -, h⟩ := bind_eq_ok.mp h
  obtain ⟨s, -, h⟩ := bind_eq_ok.mp h
  cases h
  exact ⟨⟨rfl, rfl, fun _ _ => rfl⟩, rfl⟩

lemma heardFrom_dgram (h : heardFrom origin r = .ok r') : r'.dgram = r.dgram := by
  obtain ⟨vtime, -, h⟩ := bind_eq_ok.mp h
  obtain ⟨s, -, h⟩ := bind_eq_ok.mp h
  cases h
  rfl

lemma HandleCase.behind {n i : Nat} (h : HandleCase alloc n origin r (some r')) (hi : r.parsed + 10 ≤ i) :
    r'.dgram.mem i = r.dgram.mem i := by
  cases h with
  | hello _ _ _ => exact store8_outside _ _ (.inr (by omega))
  | mid _ _ => rfl
  | knownTc _ _ => exact store8_outside _ _ (.inr (by omega))
  | newTc _ _ _ => exact store8_outside _ _ (.inr (by omega))

lemma SameHeader.trans (h : SameHeader r r') (h' : SameHeader r' u) : SameHeader r u := by
  refine ⟨h'.parsed.trans h.parsed, h'.len.trans h.len, fun i hi => ?_⟩
  rw [h'.mem i (by rw [h.parsed]; exact hi), h.mem i hi]

lemma SameHeader.knownType (h : SameHeader r r') : KnownType r' ↔ KnownType r := by
  rw [KnownType, KnownType, h.parsed, h.mem _ (by omega)]

lemma SameHeader.orig (h : SameHeader r r') : r'.orig = r.orig := by
  rw [OlsrRecv.orig, OlsrRecv.orig, load32, load32, h.parsed, h.mem _ (by omega), h.mem _ (by omega),
    h.mem _ (by omega), h.mem _ (by omega)]

lemma SameHeader.forward (h : SameHeader r r') (hu : olsrForward r' = .ok u) (hzero : r.size = 0) :
    SameHeader r u := by
  obtain ⟨-, hparsed, hlen, hmem⟩ := olsrForward_frame hu
  refine h.trans ⟨?_, hlen, hmem⟩
  rw [hparsed, h.size, hzero, Nat.add_zero]

lemma handle_ends {kids : Option Nat → List Nat} {depth : Nat → Nat} {bound : Nat} {k : Option Nat}
    (T : TreeShape r.olsr kids depth bound) (ho : origin ∈ kids k) (h8 : r.parsed + 8 ≤ r.dgram.len)
    (hknown : KnownType r) (hok : HandleOk alloc origin r) :
    ∃ r', Ends (fun n => olsrHandle alloc n origin r) (some r') ∧ Handled r r' := by
  obtain htype | htype | htype := hknown
  · exact handle_hello T ho h8 htype hok
  · exact handle_mid T ho h8 htype hok
  · exact handle_tc T ho h8 htype hok

lemma msgTurn_ends (hs : r.olsr.IsTree) (hlt : r.parsed < r.dgram.len) (hok : MsgOk alloc r) : ∃ x,
    Ends (fun n => msgTurn alloc n r) x ∧ ∀ u, x = .inl u → u.olsr.IsTree ∧ r.parsed < u.parsed ∧ u.dgram.len =
    r.dgram.len := by
  obtain ⟨kids, depth, bound, T⟩ := hs
  have horig := get32_iff.mpr ⟨show r.parsed + 4 + 4 ≤ r.dgram.len from hok.header, rfl⟩
  have hlt' : ¬r.dgram.len ≤ r.parsed := by omega
  obtain ⟨res, hres, hmem⟩ := T.getRouteByAddress_ends r.orig
  cases res with
  | none =>
    have hsize := msgSize_iff.mpr ⟨show r.parsed + 4 ≤ r.dgram.len by have := hok.header; omega, rfl⟩
    refine ⟨.inl { r with olsr := arpStorm r.orig r.olsr, parsed := r.parsed + r.size }, ?_, ?_⟩
    · rw [OlsrRecv.orig] at hres
      filter_upwards [hres] with n hn
      simp only [msgTurn, if_neg hlt', horig, ok_bind, hn, hsize, pure_eq_ok, OlsrRecv.orig]
    rintro u ⟨⟩
    have hsize := hok.advance (.inl hres)
    have hs : r.olsr.IsTree := ⟨_, _, _, T⟩
    exact ⟨hs.of_entries rfl rfl le_rfl, show r.parsed < r.parsed + r.size by omega, rfl⟩
  | some origin =>
    obtain ⟨k, hk⟩ := hmem origin rfl
    obtain ⟨s, hheard, T₁⟩ := heardFrom_tree T hk hok.header
    have hok₁ := hok.known origin _ hres hheard
    have hsame : SameMsg r { r with olsr := s } := heardFrom_same hheard
    rw [OlsrRecv.orig] at hres
    by_cases hknown : KnownType r
    · obtain ⟨r₂, hends, hhandled⟩ := handle_ends (r := { r with olsr := s }) T₁ hk hok.header hknown hok₁
      obtain ⟨r₃, h₃⟩ := olsrForward_iff.mpr hhandled.copy
      refine ⟨.inl r₃, ?_, ?_⟩
      · filter_upwards [hres, hends] with n hn hends
        simp only [msgTurn, if_neg hlt', horig, ok_bind, hn, hheard, hends, h₃, pure_eq_ok]
      rintro u ⟨⟩
      obtain ⟨holsr, hparsed, hlen, -⟩ := olsrForward_frame h₃
      have hhdr := hsame.toSameHeader.trans hhandled.same.toSameHeader
      have hsize := hok.advance (.inr hknown)
      refine ⟨by rw [holsr]; exact hhandled.tree, ?_, hlen.trans hhdr.len⟩
      rw [hparsed, hhdr.parsed, hhdr.size]
      omega
    refine ⟨.inr ({ r with olsr := s }, false), ?_, fun u hu => absurd hu Sum.inr_ne_inl⟩
    have htype := get8_iff.mpr ⟨hlt, rfl⟩
    obtain ⟨hhello, hmid, htc⟩ : r.dgram.mem r.parsed ≠ OLSRMSG_HELLO ∧
        r.dgram.mem r.parsed ≠ OLSRMSG_MID ∧ r.dgram.mem r.parsed ≠ OLSRMSG_TC := by
      simpa [KnownType, not_or] using hknown
    filter_upwards [hres] with n hn
    simp only [msgTurn, if_neg hlt', horig, ok_bind, hn, hheard, olsrHandle, htype, if_neg hhello, if_neg hmid,
      if_neg htc, pure_eq_ok]

lemma size_ne_zero {y : OlsrRecv × Bool} (hends : Ends (fun n => runLoop .hang (msgTurn alloc) n r) y)
    (hlt : r.parsed < r.dgram.len) (h : Finds r.olsr r.orig none ∨ KnownType r) : r.size ≠ 0 := by
  intro hzero
  obtain ⟨u, hv, hleaves⟩ := (runLoop_ends_iff (msgTurn_mono alloc)).mp hends
  -- the loop stays at this message
  have hstay : SameHeader r u ∧ (Finds u.olsr r.orig none ∨ KnownType r) := by
    apply hv.keeps (P := fun u => SameHeader r u ∧ (Finds u.olsr r.orig none ∨ KnownType r))
    · exact ⟨⟨rfl, rfl, fun _ _ => rfl⟩, h⟩
    rintro t u - ⟨hsame, hgoes⟩ hturn
    obtain ⟨n, hn⟩ := hturn.exists
    have hlt' : t.parsed < t.dgram.len := by rw [hsame.parsed, hsame.len]; exact hlt
    obtain ⟨-, ⟨hnone, hu⟩ | ⟨origin, r₁, y, hfinds, h₁, hy, hy'⟩⟩ := msgTurn_cases hlt' hn
    · cases hu
      rw [hsame.orig] at hnone
      refine ⟨hsame.trans ⟨?_, rfl, fun _ _ => rfl⟩, .inl hnone⟩
      show t.parsed + t.size = t.parsed
      rw [hsame.size, hzero, Nat.add_zero]
    rw [hsame.orig] at hfinds
    have hknown : KnownType r := hgoes.resolve_left (fun hnone => by cases hnone.unique hfinds)
    obtain ⟨-, hu⟩ | ⟨r₂, r₃, rfl, h₃, hu⟩ := hy'
    · cases hu
    cases hu
    have hhdr := (hsame.trans (heardFrom_same h₁).toSameHeader).trans
      ((olsrHandle_frame hy).2 r₂ rfl).toSameHeader
    exact ⟨hhdr.forward h₃ hzero, .inr hknown⟩
  obtain ⟨hsame, hgoes⟩ := hstay
  obtain ⟨n, hn⟩ := hleaves.exists
  have hlt' : u.parsed < u.dgram.len := by rw [hsame.parsed, hsame.len]; exact hlt
  obtain ⟨-, ⟨-, hu⟩ | ⟨origin, r₁, y, hfinds, h₁, hy, ⟨rfl, -⟩ | ⟨r₂, r₃, -, -, hu⟩⟩⟩ := msgTurn_cases hlt' hn
  · cases hu
  · rw [hsame.orig] at hfinds
    have hknown : KnownType r := hgoes.resolve_left (fun hnone => by cases hnone.unique hfinds)
    rw [← hsame.knownType, ← (heardFrom_same h₁).knownType] at hknown
    exact (olsrHandle_frame hy).1.mp hknown rfl
  · cases hu

lemma msgOk {y : OlsrRecv × Bool} (hs : r.olsr.IsTree) (hends : Ends (fun n => runLoop .hang (msgTurn alloc) n r) y)
    (hlt : r.parsed < r.dgram.len) : MsgOk alloc r := by
  obtain ⟨n, x, hn⟩ := Visits.start.turn_ok hends
  obtain ⟨hheader, hcases⟩ := msgTurn_cases hlt hn
  refine ⟨hheader, size_ne_zero hends hlt, fun origin r' hfinds hheard => ?_⟩
  obtain ⟨hnone, -⟩ | ⟨origin', r₁, y, hfinds', h₁, hy, hy'⟩ := hcases
  · cases hnone.unique hfinds
  cases hfinds.unique hfinds'
  rw [hheard] at h₁
  cases h₁
  obtain ⟨kids, depth, bound, T⟩ := hs
  obtain ⟨k, hk⟩ := T.finds_mem hfinds
  obtain ⟨s, hheard', T₁⟩ := heardFrom_tree T hk hheader
  rw [hheard] at hheard'
  cases hheard'
  apply handleOk T₁ hk hy
  rintro r₂ rfl
  obtain ⟨h, -⟩ | ⟨r₂', r₃, h, h₃, -⟩ := hy'
  · cases h
  cases h
  exact olsrForward_iff.mp ⟨r₃, h₃⟩

structure OlsrTree where
  olsr : Olsr
  isTree : olsr.IsTree

/-- `olsr_recv` returns: its loops end, it reads no byte outside the datagram, it writes none outside the
forwarding buffer, and it follows no bad pointer. -/
def Returns (alloc : Nat → Bool) (d : Dgram) (s : Olsr) : Prop := ∃ s', Ends (fun n => olsrRecv alloc n d s) s'

structure DgramOk (alloc : Nat → Bool) (d : Dgram) (s : Olsr) : Prop where
  header : 2 ≤ d.len
  msgs : d.len = (ntohs (load16 d.mem 0)).toNat → ∀ r, Visits (msgTurn alloc) (recvStart d s) r →
    r.parsed < r.dgram.len → MsgOk alloc r

lemma olsrRecv_loop {n : Nat} {d : Dgram} {s : Olsr} (h2 : 2 ≤ d.len)
    (hlen : d.len = (ntohs (load16 d.mem 0)).toNat) : olsrRecv alloc n d s =
    runLoop .hang (msgTurn alloc) n (recvStart d s) >>= fun y => .ok (if y.2 then olsrSend y.1 else y.1.olsr) := by
  rw [olsrRecv, get16_iff.mpr ⟨h2, rfl⟩, ok_bind, if_neg (not_not.mpr hlen)]
  congr 1
  funext y
  obtain ⟨r, b⟩ := y
  cases b <;> rfl

lemma msgTurn_step (hs : r.olsr.IsTree) (hok : r.parsed < r.dgram.len → MsgOk alloc r) : ∃ x,
    Ends (fun n => msgTurn alloc n r) x ∧ ∀ u, x = .inl u → u.olsr.IsTree ∧
    u.dgram.len - u.parsed < r.dgram.len - r.parsed := by
  by_cases hlt : r.parsed < r.dgram.len
  · obtain ⟨x, hx, hkeeps⟩ := msgTurn_ends hs hlt (hok hlt)
    refine ⟨x, hx, fun u hu => ?_⟩
    obtain ⟨htree, hparsed, hlen⟩ := hkeeps u hu
    exact ⟨htree, by omega⟩
  · exact ⟨.inr (r, true), ends_of_forall (fun n => if_pos (not_lt.mp hlt)), nofun⟩

lemma visits_tree (hs : r.olsr.IsTree) (hv : Visits (msgTurn alloc) r u)
    (hok : ∀ t, Visits (msgTurn alloc) r t → t.olsr.IsTree → t.parsed < t.dgram.len → MsgOk alloc t) :
    u.olsr.IsTree := by
  apply hv.keeps (P := fun u => u.olsr.IsTree) hs
  intro t u hv ht hturn
  obtain ⟨x, hx, hkeeps⟩ := msgTurn_step ht (hok t hv ht)
  exact (hkeeps u (hx.unique hturn)).1

lemma returns_iff_dgramOk (alloc : Nat → Bool) (d : Dgram) (t : OlsrTree) :
    Returns alloc d t.olsr ↔ DgramOk alloc d t.olsr := by
  constructor
  · rintro ⟨s', hends⟩
    obtain ⟨n, hn⟩ := hends.exists
    have hn : olsrRecv alloc n d t.olsr = .ok s' := hn
    obtain ⟨len, hlen, -⟩ := bind_eq_ok.mp hn
    obtain ⟨h2, rfl⟩ := get16_iff.mp hlen
    refine ⟨h2, fun hlen r hv hlt => ?_⟩
    rw [olsrRecv_loop h2 hlen] at hn
    obtain ⟨y, hy, -⟩ := bind_eq_ok.mp hn
    have hloop := runLoop_ends_of_ok (msgTurn_mono alloc) hy
    have hok : ∀ u, Visits (msgTurn alloc) (recvStart d t.olsr) u → u.olsr.IsTree → u.parsed < u.dgram.len →
        MsgOk alloc u := fun u hu htree => msgOk htree (hu.ends_iff.mp hloop)
    exact hok r hv (visits_tree t.isTree hv hok) hlt
  rintro ⟨h2, hmsgs⟩
  by_cases hlen : d.len = (ntohs (load16 d.mem 0)).toNat
  · have hstep : ∀ r, Visits (msgTurn alloc) (recvStart d t.olsr) r →
        ∃ x, Ends (fun n => msgTurn alloc n r) x ∧
          ∀ u, x = .inl u → u.dgram.len - u.parsed < r.dgram.len - r.parsed := by
      intro r hv
      have htree := visits_tree t.isTree hv (fun u hu _ => hmsgs hlen u hu)
      obtain ⟨x, hx, hkeeps⟩ := msgTurn_step htree (hmsgs hlen r hv)
      exact ⟨x, hx, fun u hu => (hkeeps u hu).2⟩
    obtain ⟨r, y, hv, hleaves⟩ :=
      exists_leaves_of_measure (fun r => r.dgram.len - r.parsed) (recvStart d t.olsr) hstep
    have hloop : Ends (fun n => runLoop OlsrFault.hang (msgTurn alloc) n (recvStart d t.olsr)) y :=
      (runLoop_ends_iff (msgTurn_mono alloc)).mpr ⟨r, hv, hleaves⟩
    refine ⟨if y.2 then olsrSend y.1 else y.1.olsr, ?_⟩
    filter_upwards [hloop] with n hn
    rw [olsrRecv_loop h2 hlen, hn]
    rfl
  refine ⟨t.olsr, ends_of_forall (fun n => ?_)⟩
  rw [olsrRecv, get16_iff.mpr ⟨h2, rfl⟩, ok_bind, if_pos hlen]
  rfl

/-- `olsr_recv` returns exactly if each message that it comes to can be taken. -/
theorem olsr_recv_returns_iff (alloc : Nat → Bool) (d : Dgram) (t : OlsrTree) :
    Returns alloc d t.olsr ↔ DgramOk alloc d t.olsr := returns_iff_dgramOk alloc d t

/-- A datagram of one message that says it has no bytes, from a host that is not known. -/
def emptyMessage : Dgram where
  mem := fun i => [0, 16, 0, 0, 0xc9, 0, 0, 0, 10, 0, 0, 9, 1, 0, 0, 0].getD i 0
  len := 16

def interfaceEntry : OlsrEntry := { destination := 0x0100000a, iface := some 0, lq := 255, nlq := 255 }

def loneInterface : OlsrTree where
  olsr :=
    { entries := fun p => if p = 0 then some interfaceEntry else none
      mallocs := 1, localInterfaces := some 0, myAnsn := 0, freshAnsn := 0, pktCounter := 0, ifaces := [0]
      router := routerStart, arpQueries := [], sent := [] }
  isTree := by
    refine ⟨fun k => if k = none then [0] else [], fun _ => 0, 0, ?_⟩
    refine { roots := ⟨rfl, interfaceEntry, rfl, rfl⟩, child := ?_, nodup := ?_, rooted := ?_, root := ?_
             deeper := ?_, bounded := ?_, fresh := ?_ }
    · intro k p hp
      split at hp
      · next hk =>
        rw [List.mem_singleton.mp hp]
        exact ⟨interfaceEntry, rfl, hk.symm, rfl⟩
      · cases hp
    · intro k
      split <;> simp
    · simp
    · intro p hp e he
      rw [List.mem_singleton.mp hp] at he
      cases he
      exact ⟨rfl, rfl⟩
    · simp
    · simp
    · intro p hp
      have hp : 1 ≤ p := hp
      exact if_neg (by omega)

lemma emptyMessage_lookup (n : Nat) :
    getRouteByAddress loneInterface.olsr.entries (load32 emptyMessage.mem 8) n (some 0) = .error .hang ∨
    getRouteByAddress loneInterface.olsr.entries (load32 emptyMessage.mem 8) n (some 0) = .ok none := by
  have hentry : loneInterface.olsr.entries 0 = some interfaceEntry := rfl
  have hne : interfaceEntry.destination ≠ load32 emptyMessage.mem 8 := by decide
  match n with
  | 0 => exact .inl rfl
  | 1 =>
    left
    rw [getRouteByAddress, read_eq hentry, ok_bind, if_neg hne]
    rfl
  | n + 2 =>
    right
    rw [getRouteByAddress, read_eq hentry, ok_bind, if_neg hne]
    rfl

lemma emptyMessage_loop (n : Nat) (q : List (Nat × BitVec 32)) :
    runLoop .hang (msgTurn (fun _ => true)) n (recvStart emptyMessage { loneInterface.olsr with arpQueries := q }) =
      .error .hang := by
  induction n generalizing q with
  | zero => rfl
  | succ n ih =>
    let r := recvStart emptyMessage { loneInterface.olsr with arpQueries := q }
    have horig : r.dgram.get32 (r.parsed + 4) = .ok (load32 emptyMessage.mem 8) :=
      get32_iff.mpr ⟨show 4 + 4 + 4 ≤ 16 by decide, rfl⟩
    have hzero : (ntohs (load16 emptyMessage.mem 6)).toNat = 0 := by decide
    have hsize : r.msgSize = .ok 0 := msgSize_iff.mpr ⟨show 4 + 4 ≤ 16 by decide, hzero.symm⟩
    have hturn : msgTurn (fun _ => true) n r = .error .hang ∨
        msgTurn (fun _ => true) n r = .ok (.inl { r with olsr := arpStorm (load32 emptyMessage.mem 8) r.olsr }) := by
      have hlt : ¬r.dgram.len ≤ r.parsed := show ¬16 ≤ 4 by decide
      rw [msgTurn, if_neg hlt, horig, ok_bind]
      rcases emptyMessage_lookup n with hn | hn
      · left
        show (getRouteByAddress loneInterface.olsr.entries _ n (some 0) >>= _) = _
        rw [hn]
        rfl
      right
      show (getRouteByAddress loneInterface.olsr.entries _ n (some 0) >>= _) = _
      rw [hn, ok_bind]
      dsimp only
      rw [hsize]
      rfl
    show (msgTurn (fun _ => true) n r >>= _) = _
    rcases hturn with hn | hn
    · rw [hn]
      rfl
    rw [hn, ok_bind]
    exact ih _

/-- The loop does not get on from a message of size zero. -/
theorem empty_message_hangs : (∀ n, olsrRecv (fun _ => true) n emptyMessage loneInterface.olsr = .error .hang) ∧
    ¬Returns (fun _ => true) emptyMessage loneInterface.olsr := by
  have hhang : ∀ n, olsrRecv (fun _ => true) n emptyMessage loneInterface.olsr = .error .hang := by
    intro n
    rw [olsrRecv_loop (by decide) (by decide)]
    have hloop : runLoop .hang (msgTurn (fun _ => true)) n (recvStart emptyMessage loneInterface.olsr) =
        .error .hang := emptyMessage_loop n []
    rw [hloop]
    rfl
  refine ⟨hhang, ?_⟩
  rintro ⟨s', hends⟩
  obtain ⟨n, hn⟩ := hends.exists
  have hn : olsrRecv (fun _ => true) n emptyMessage loneInterface.olsr = .ok s' := hn
  rw [hhang n] at hn
  cases hn

end Recv

end Vde
