import Vde.OlsrDgram
import Vde.Proofs.OlsrTurns

/-!
# What the builders of OLSR write

Each record is one store of adjacent bytes. A list of records fits into its space if there is room behind its last
record, or if the space is a whole number of records: then the last record that fits is written but not counted.
-/

namespace Vde

open List

/-! ### Stores -/

section Put

def Dgram.put (d : Dgram) (off : Nat) (bytes : List UInt8) : Except OlsrFault Dgram :=
  if off + bytes.length ≤ d.len then .ok ⟨memcpy d.mem off bytes, d.len⟩ else .error .writeOutside

variable {d d' : Dgram} {off : Nat}

lemma put_inside {bytes : List UInt8} (h : off + bytes.length ≤ d.len) :
    d.put off bytes = .ok ⟨memcpy d.mem off bytes, d.len⟩ := by
  rw [Dgram.put, if_pos h]

lemma put_outside {bytes : List UInt8} (h : d.len < off + bytes.length) : d.put off bytes = .error .writeOutside := by
  rw [Dgram.put, if_neg (Nat.not_le.mpr h)]

section

variable (d) (off)

include d off

lemma set8_put (x : UInt8) : d.set8 off x = d.put off [x] := rfl

lemma set16_put (x : BitVec 16) : d.set16 off x = d.put off (bytes16 x) := rfl

lemma set32_put (x : BitVec 32) : d.set32 off x = d.put off (bytes32 x) := rfl

lemma put_put (a b : List UInt8) : (d.put off a >>= fun d => d.put (off + a.length) b) = d.put off (a ++ b) := by
  by_cases ha : off + a.length ≤ d.len
  · rw [put_inside ha, ok_bind]
    by_cases hb : off + a.length + b.length ≤ d.len
    · rw [@put_inside ⟨memcpy d.mem off a, d.len⟩ _ _ hb, put_inside (by rw [length_append]; omega), memcpy_memcpy]
    rw [@put_outside ⟨memcpy d.mem off a, d.len⟩ _ _ (Nat.not_le.mp hb),
      put_outside (by rw [length_append]; omega)]
  rw [put_outside (by omega), put_outside (by rw [length_append]; omega)]
  rfl

lemma put_swap (x y : UInt8) : (d.put (off + 1) [y] >>= fun d => d.put off [x]) = d.put off [x, y] := by
  by_cases h : off + 2 ≤ d.len
  · have hfirst : off + [x].length ≤ d.len := Nat.le_of_succ_le h
    have hsecond : off + 1 + [y].length ≤ d.len := h
    rw [put_inside hsecond, ok_bind, @put_inside ⟨memcpy d.mem (off + 1) [y], d.len⟩ _ _ hfirst, put_inside h]
    have hswap : memcpy (memcpy d.mem (off + 1) [y]) off [x] = memcpy d.mem off [x, y] := by
      funext i
      by_cases h0 : i = off
      · subst h0
        exact (memcpy_inside _ i 0 [x] Nat.one_pos).trans (memcpy_inside _ i 0 [x, y] Nat.two_pos).symm
      rw [memcpy_outside _ _ _ _ (by rw [length_singleton]; omega)]
      by_cases h1 : i = off + 1
      · subst h1
        exact (memcpy_inside _ (off + 1) 0 [y] Nat.one_pos).trans
          (memcpy_inside _ off 1 [x, y] Nat.one_lt_two).symm
      rw [memcpy_outside _ _ _ _ (by rw [length_singleton]; omega),
        memcpy_outside _ _ _ _ (by change i < off ∨ off + 2 ≤ i; omega)]
    rw [hswap]
  have hsecond : d.len < off + 1 + [y].length := Nat.not_le.mp h
  rw [put_outside hsecond, put_outside (Nat.not_le.mp h)]
  rfl

end

end Put

/-! ### Records -/

def addressBytes (e : OlsrEntry) : List UInt8 := bytes32 e.destination

def neighborBytes (e : OlsrEntry) : List UInt8 := bytes32 e.destination ++ ([e.lq, e.nlq] ++ bytes16 0)

def linkBytes (e : OlsrEntry) : List UInt8 := [e.linkType] ++ ([0] ++ (bytes16 (ntohs 12) ++ neighborBytes e))

lemma putNeighbor_eq (off : Nat) (e : OlsrEntry) (d : Dgram) : putNeighbor off e d = d.put off (neighborBytes e) := by
  have hpair (d : Dgram) : (d.put (off + 5) [e.nlq] >>= fun d => d.put (off + 4) [e.lq] >>= fun d =>
      d.put (off + 6) (bytes16 0)) = d.put (off + 4) ([e.lq, e.nlq] ++ bytes16 0) := by
    rw [← bind_assoc, put_swap d (off + 4) e.lq e.nlq]
    exact put_put d (off + 4) [e.lq, e.nlq] (bytes16 0)
  simp only [putNeighbor, set8_put, set16_put, set32_put, hpair]
  exact put_put d off (bytes32 e.destination) _

lemma putLink_eq (off : Nat) (e : OlsrEntry) (d : Dgram) : putLink off e d = d.put off (linkBytes e) := by
  have hsize (d : Dgram) : (d.put (off + 2) (bytes16 (ntohs 12)) >>= fun d => d.put (off + 4) (neighborBytes e)) =
      d.put (off + 2) (bytes16 (ntohs 12) ++ neighborBytes e) := put_put d (off + 2) _ _
  have hzero (d : Dgram) : (d.put (off + 1) [0] >>= fun d => d.put (off + 2) (bytes16 (ntohs 12) ++ neighborBytes e)) =
      d.put (off + 1) ([0] ++ (bytes16 (ntohs 12) ++ neighborBytes e)) := put_put d (off + 1) _ _
  simp only [putLink, set8_put, set16_put, putNeighbor_eq, hsize, hzero]
  exact put_put d off [e.linkType] _

/-! ### Lists of records -/

/-- A list of records fits behind the first `ret` bytes of its space. -/
def BuildOk (width room ret N : Nat) : Prop :=
  N = 0 ∨ ret + width * N < room ∨ ∃ j, ret + width * (j + 1) = room

/-- How many records count: all, or all that fit but the last one. -/
structure BuildCount (width room ret N k : Nat) : Prop where
  le : k ≤ N
  all : N = 0 ∨ ret + width * N < room → k = N
  full : N ≠ 0 → room ≤ ret + width * N → ret + width * (k + 1) = room

section Build

variable {width : Nat} {put : Nat → OlsrEntry → Dgram → Except OlsrFault Dgram} {bytes : OlsrEntry → List UInt8}
  {base room : Nat}

lemma buildOk_succ {ret N : Nat} (hlt : ret + width < room) :
    BuildOk width room ret (N + 1) ↔ BuildOk width room (ret + width) N := by
  have hmul : width * (N + 1) = width * N + width := Nat.mul_succ width N
  constructor
  · rintro (hzero | hshort | ⟨j, hwhole⟩)
    · exact absurd hzero (Nat.succ_ne_zero N)
    · exact .inr (.inl (by omega))
    cases j with
    | zero =>
      rw [Nat.zero_add, Nat.mul_one] at hwhole
      omega
    | succ j =>
      rw [Nat.mul_succ] at hwhole
      exact .inr (.inr ⟨j, by omega⟩)
  rintro (rfl | hshort | ⟨j, hwhole⟩)
  · rw [Nat.zero_add, Nat.mul_one] at hmul
    exact .inr (.inl (by omega))
  · exact .inr (.inl (by omega))
  · exact .inr (.inr ⟨j + 1, by rw [Nat.mul_succ]; omega⟩)

lemma BuildCount.succ {ret N k : Nat} (h : BuildCount width room (ret + width) N k) (hlt : ret + width < room) :
    BuildCount width room ret (N + 1) (k + 1) := by
  obtain ⟨hle, hall, hfull⟩ := h
  have hmul : width * (N + 1) = width * N + width := Nat.mul_succ width N
  refine ⟨by omega, ?_, ?_⟩
  · rintro (hzero | hshort)
    · exact absurd hzero (Nat.succ_ne_zero N)
    · rw [hall (.inr (by omega))]
  intro _ hlong
  have hN : N ≠ 0 := by
    rintro rfl
    rw [Nat.zero_add, Nat.mul_one] at hlong
    omega
  have hroom := hfull hN (by omega)
  rw [Nat.mul_succ] at hroom ⊢
  rw [Nat.mul_succ]
  omega

lemma buildRecords_ok (hput : ∀ off e d, put off e d = d.put off (bytes e)) (hwidth : ∀ e, (bytes e).length = width)
    {es : List OlsrEntry} {ret : Nat} {d : Dgram} (hroom : base + room = d.len)
    (h : BuildOk width room ret es.length) : ∃ k d', buildRecords width put base room es ret d =
    .ok (ret + width * k, d') ∧ BuildCount width room ret es.length k ∧ d'.len = d.len ∧
    (∀ i < base + ret, d'.mem i = d.mem i) ∧ HoldsBytes d'.mem (base + ret) ((es.take k).flatMap bytes) := by
  induction es generalizing ret d with
  | nil =>
    refine ⟨0, d, rfl, ⟨le_rfl, fun _ => rfl, fun hne => absurd rfl hne⟩, rfl, fun _ _ => rfl, holdsBytes_nil _ _⟩
  | cons e rest ih =>
    rw [length_cons] at h
    have hle : ret + width ≤ room := by
      rcases h with hzero | hshort | ⟨j, hwhole⟩
      · exact absurd hzero (Nat.succ_ne_zero _)
      · rw [Nat.mul_succ] at hshort
        omega
      rw [Nat.mul_succ] at hwhole
      omega
    have hinside : base + ret + (bytes e).length ≤ d.len := by
      rw [hwidth]
      omega
    rw [buildRecords, hput, put_inside hinside, ok_bind]
    by_cases hend : room ≤ ret + width
    · rw [if_pos (by exact_mod_cast hend)]
      refine ⟨0, ⟨memcpy d.mem (base + ret) (bytes e), d.len⟩, by rw [Nat.mul_zero, Nat.add_zero]; rfl,
        ⟨Nat.zero_le _, ?_, ?_⟩, rfl, ?_, holdsBytes_nil _ _⟩
      · rintro (hzero | hshort)
        · exact absurd hzero (Nat.succ_ne_zero _)
        rw [length_cons, Nat.mul_succ] at hshort
        omega
      · intro _ _
        rw [Nat.zero_add, Nat.mul_one]
        omega
      intro i hi
      exact memcpy_outside _ _ _ _ (.inl hi)
    have hlt : ret + width < room := Nat.not_le.mp hend
    rw [if_neg (by exact_mod_cast hend)]
    obtain ⟨k, d', hbuild, hcount, hlen, hbefore, hholds⟩ :=
      @ih (ret + width) ⟨memcpy d.mem (base + ret) (bytes e), d.len⟩ hroom ((buildOk_succ hlt).mp h)
    refine ⟨k + 1, d', ?_, hcount.succ hlt, hlen, ?_, ?_⟩
    · rw [hbuild, Nat.mul_succ]
      congr 2
      omega
    · intro i hi
      rw [hbefore i (by omega)]
      exact memcpy_outside _ _ _ _ (.inl hi)
    rw [take_succ_cons, flatMap_cons, holdsBytes_append]
    constructor
    · refine (holdsBytes_memcpy d.mem (base + ret) (bytes e)).congr (fun i hi => hbefore _ ?_)
      rw [hwidth] at hi
      omega
    rw [hwidth, Nat.add_assoc]
    exact hholds

lemma buildRecords_outside (hput : ∀ off e d, put off e d = d.put off (bytes e))
    (hwidth : ∀ e, (bytes e).length = width) {es : List OlsrEntry} {ret : Nat} {d : Dgram} (hroom : base + room = d.len)
    (h : ¬BuildOk width room ret es.length) : buildRecords width put base room es ret d = .error .writeOutside := by
  induction es generalizing ret d with
  | nil => exact absurd (.inl rfl) h
  | cons e rest ih =>
    rw [length_cons] at h
    rw [buildRecords, hput]
    by_cases hle : ret + width ≤ room
    · have hinside : base + ret + (bytes e).length ≤ d.len := by
        rw [hwidth]
        omega
      have hlt : ret + width < room := by
        apply Nat.lt_of_le_of_ne hle
        intro heq
        exact h (.inr (.inr ⟨0, by rw [Nat.zero_add, Nat.mul_one, heq]⟩))
      rw [put_inside hinside, ok_bind, if_neg (by exact_mod_cast Nat.not_le.mpr hlt)]
      exact @ih (ret + width) ⟨memcpy d.mem (base + ret) (bytes e), d.len⟩ hroom
        (fun hok => h ((buildOk_succ hlt).mpr hok))
    rw [put_outside (by rw [hwidth]; omega)]
    rfl

end Build

/-! ### Messages -/

/-- What a datagram tells: neighbours, other addresses, or neighbours again. -/
inductive OlsrBody where
  | hello (neighbors : List OlsrEntry)
  | mid (locals : List OlsrEntry)
  | tc (ansn : BitVec 16) (neighbors : List OlsrEntry)

structure OlsrMsg where
  orig : BitVec 32
  body : OlsrBody

def OlsrBody.type : OlsrBody → UInt8
  | hello _ => OLSRMSG_HELLO
  | mid _ => OLSRMSG_MID
  | tc _ _ => OLSRMSG_TC

def OlsrBody.size : OlsrBody → Nat
  | hello neighbors => 16 + 12 * neighbors.length
  | mid locals => 12 + 4 * locals.length
  | tc _ neighbors => 16 + 8 * neighbors.length

def CarriesBody (mem : Mem) (off : Nat) : OlsrBody → Prop
  | .hello neighbors => HoldsBytes mem (off + 16) (neighbors.flatMap linkBytes)
  | .mid locals => HoldsBytes mem (off + 12) (locals.flatMap addressBytes)
  | .tc ansn neighbors => load16 mem (off + 12) = ntohs ansn ∧ HoldsBytes mem (off + 16) (neighbors.flatMap neighborBytes)

structure CarriesMsg (mem : Mem) (off : Nat) (m : OlsrMsg) : Prop where
  type : mem off = m.body.type
  size : load16 mem (off + 2) = ntohs (BitVec.ofNat 16 m.body.size)
  orig : load32 mem (off + 4) = m.orig
  body : CarriesBody mem off m.body

lemma flatMap_length {bytes : OlsrEntry → List UInt8} {width : Nat} (hwidth : ∀ e, (bytes e).length = width)
    (es : List OlsrEntry) : (es.flatMap bytes).length = width * es.length := by
  induction es with
  | nil => rfl
  | cons e es ih => rw [flatMap_cons, length_append, hwidth, ih, length_cons, Nat.mul_succ, Nat.add_comm]

lemma linkBytes_length (e : OlsrEntry) : (linkBytes e).length = 12 := rfl

lemma neighborBytes_length (e : OlsrEntry) : (neighborBytes e).length = 8 := rfl

lemma addressBytes_length (e : OlsrEntry) : (addressBytes e).length = 4 := rfl

lemma OlsrBody.size_ge (b : OlsrBody) : 12 ≤ b.size := by
  cases b with
  | hello neighbors => exact Nat.le_add_right_of_le (by decide)
  | mid locals => exact Nat.le_add_right _ _
  | tc ansn neighbors => exact Nat.le_add_right_of_le (by decide)

lemma CarriesMsg.congr {mem mem' : Mem} {off : Nat} {m : OlsrMsg} (h : CarriesMsg mem off m)
    (heq : ∀ i, off ≤ i → i < off + m.body.size → mem' i = mem i) : CarriesMsg mem' off m := by
  have hmin := m.body.size_ge
  refine ⟨?_, ?_, ?_, ?_⟩
  · rw [heq off le_rfl (by omega)]
    exact h.type
  · rw [load16_congr (fun i hi => heq (off + 2 + i) (by omega) (by omega))]
    exact h.size
  · rw [load32_congr (fun i hi => heq (off + 4 + i) (by omega) (by omega))]
    exact h.orig
  · have hbody := h.body
    cases hm : m.body with
    | hello neighbors =>
      rw [hm] at hbody heq
      refine HoldsBytes.congr hbody (fun i hi => heq _ (by omega) ?_)
      rw [flatMap_length linkBytes_length] at hi
      rw [OlsrBody.size]
      omega
    | mid locals =>
      rw [hm] at hbody heq
      refine HoldsBytes.congr hbody (fun i hi => heq _ (by omega) ?_)
      rw [flatMap_length addressBytes_length] at hi
      rw [OlsrBody.size]
      omega
    | tc ansn neighbors =>
      rw [hm] at hbody heq
      obtain ⟨hansn, hlist⟩ := hbody
      refine ⟨?_, HoldsBytes.congr hlist (fun i hi => heq _ (by omega) ?_)⟩
      · rw [load16_congr (fun i hi => heq (off + 12 + i) (by omega) (by rw [OlsrBody.size]; omega))]
        exact hansn
      rw [flatMap_length neighborBytes_length] at hi
      rw [OlsrBody.size]
      omega

section Header

variable {d : Dgram} {off : Nat} {type vtime ttl seq : UInt8} {orig : BitVec 32}

lemma putMsg_eq (d : Dgram) : putMsg off type vtime orig ttl seq d = d.put off [type, vtime] >>= fun d =>
    d.put (off + 4) (bytes32 orig ++ ([ttl, 0] ++ bytes16 (ntohs (BitVec.ofNat 16 seq.toNat)))) := by
  have hend (d : Dgram) : (d.put (off + 8) [ttl] >>= fun d => d.put (off + 9) [0] >>= fun d =>
      d.put (off + 10) (bytes16 (ntohs (BitVec.ofNat 16 seq.toNat)))) =
      d.put (off + 8) ([ttl, 0] ++ bytes16 (ntohs (BitVec.ofNat 16 seq.toNat))) := by
    have htwo : (d.put (off + 8) [ttl] >>= fun d => d.put (off + 9) [0]) = d.put (off + 8) [ttl, 0] :=
      put_put d (off + 8) [ttl] [0]
    rw [← bind_assoc, htwo]
    exact put_put d (off + 8) [ttl, 0] _
  have hrest (d : Dgram) : (d.put (off + 4) (bytes32 orig) >>= fun d =>
      d.put (off + 8) ([ttl, 0] ++ bytes16 (ntohs (BitVec.ofNat 16 seq.toNat)))) =
      d.put (off + 4) (bytes32 orig ++ ([ttl, 0] ++ bytes16 (ntohs (BitVec.ofNat 16 seq.toNat)))) :=
    put_put d (off + 4) _ _
  have hfirst : (d.put off [type] >>= fun d => d.put (off + 1) [vtime]) = d.put off [type, vtime] :=
    put_put d off [type] [vtime]
  simp only [putMsg, set8_put, set16_put, set32_put, hend, hrest]
  rw [← bind_assoc, hfirst]

lemma putMsg_ok (h : off + 12 ≤ d.len) : ∃ d', putMsg off type vtime orig ttl seq d = .ok d' ∧ d'.len = d.len ∧
    (∀ i < off, d'.mem i = d.mem i) ∧ d'.mem off = type ∧ load32 d'.mem (off + 4) = orig := by
  have hfirst : off + [type, vtime].length ≤ d.len := by
    change off + 2 ≤ d.len
    omega
  rw [putMsg_eq, put_inside hfirst, ok_bind]
  refine ⟨_, put_inside (d := ⟨memcpy d.mem off [type, vtime], d.len⟩) (by change off + 4 + 8 ≤ d.len; omega), rfl, ?_, ?_, ?_⟩
  · intro i hi
    dsimp only
    rw [memcpy_outside _ _ _ _ (.inl (by omega)), memcpy_outside _ _ _ _ (.inl hi)]
  · dsimp only
    rw [memcpy_outside _ _ _ _ (.inl (by omega))]
    exact memcpy_inside d.mem off 0 [type, vtime] Nat.two_pos
  have hholds := (holdsBytes_append.mp (holdsBytes_memcpy (memcpy d.mem off [type, vtime]) (off + 4)
    (bytes32 orig ++ ([ttl, 0] ++ bytes16 (ntohs (BitVec.ofNat 16 seq.toNat)))))).1
  exact hholds.load32

lemma putMsg_outside (h : d.len < off + 12) : putMsg off type vtime orig ttl seq d = .error .writeOutside := by
  rw [putMsg_eq]
  by_cases hfirst : off + 2 ≤ d.len
  · rw [put_inside hfirst, ok_bind]
    exact put_outside (d := ⟨memcpy d.mem off [type, vtime], d.len⟩) (by change d.len < off + 4 + 8; omega)
  rw [put_outside (Nat.not_le.mp hfirst)]
  rfl

end Header

section Make

variable {d : Dgram} {orig : BitVec 32} {c : OlsrCounters} {neighbors locals : List OlsrEntry} {vif size : Nat}
  {ansn : BitVec 16}

lemma set16_inside {off : Nat} {x : BitVec 16} (h : off + 2 ≤ d.len) :
    d.set16 off x = .ok ⟨store16 d.mem off x, d.len⟩ :=
  if_pos h

lemma set8_inside {off : Nat} {x : UInt8} (h : off < d.len) : d.set8 off x = .ok ⟨store8 d.mem off x, d.len⟩ :=
  if_pos h

lemma carries_sized {mem : Mem} {off : Nat} {m : OlsrMsg} (htype : mem off = m.body.type)
    (horig : load32 mem (off + 4) = m.orig) (hbody : CarriesBody mem off m.body) :
    CarriesMsg (store16 mem (off + 2) (ntohs (BitVec.ofNat 16 m.body.size))) off m := by
  have hsame {i : Nat} (hi : i < off + 2 ∨ off + 4 ≤ i) :
      store16 mem (off + 2) (ntohs (BitVec.ofNat 16 m.body.size)) i = mem i := store16_outside _ _ hi
  refine ⟨(hsame (by omega)).trans htype, load16_store16 _ _, ?_, ?_⟩
  · rw [load32_congr (fun i hi => hsame (by omega))]
    exact horig
  obtain ⟨o, body⟩ := m
  cases body with
  | hello neighbors => exact HoldsBytes.congr hbody (fun i hi => hsame (by omega))
  | mid locals => exact HoldsBytes.congr hbody (fun i hi => hsame (by omega))
  | tc ansn neighbors =>
    obtain ⟨hansn, hlist⟩ := hbody
    refine ⟨?_, HoldsBytes.congr hlist (fun i hi => hsame (by omega))⟩
    exact (load16_congr (fun i hi => hsame (by omega))).trans hansn

lemma makeHello_start (hlen : d.len = DGRAM_MAX_SIZE) :
    ∃ d₁ : Dgram, d₁.len = DGRAM_MAX_SIZE ∧ d₁.mem 4 = OLSRMSG_HELLO ∧ load32 d₁.mem 8 = orig ∧
      makeHello orig c neighbors d = (olsrBuildHelloNeighbors 20 ((1780 : Nat) : Int) neighbors d₁ >>= fun x =>
        x.2.set16 6 (ntohs (BitVec.ofNat 16 (16 + x.1))) >>= fun d => pure (20 + x.1, d)) := by
  have hbig : DGRAM_MAX_SIZE = 1800 := rfl
  obtain ⟨d₀, hput, hlen₀, -, htype, horig⟩ := @putMsg_ok d 4 OLSRMSG_HELLO (seconds2olsr DEFAULT_VTIME) 1 c.hello orig
    (by omega)
  have hsize : ((DGRAM_MAX_SIZE : Nat) : Int) - 20 = ((1780 : Nat) : Int) := rfl
  refine ⟨⟨store8 (store8 (store16 d₀.mem 16 0) 18 0x05) 19 0x07, d₀.len⟩, hlen₀.trans hlen, ?_, ?_, ?_⟩
  · dsimp only
    rw [store8_outside _ _ (by omega), store8_outside _ _ (by omega), store16_outside _ _ (by omega)]
    exact htype
  · rw [← horig]
    apply load32_congr
    intro i hi
    dsimp only
    rw [store8_outside _ _ (by omega), store8_outside _ _ (by omega), store16_outside _ _ (by omega)]
  rw [makeHello, hput, ok_bind, set16_inside (by omega), ok_bind, set8_inside (by dsimp only; omega), ok_bind,
    set8_inside (by dsimp only; omega), ok_bind, hsize]

lemma makeHello_ok (hlen : d.len = DGRAM_MAX_SIZE) (hN : 12 * neighbors.length < 1780) : ∃ d',
    makeHello orig c neighbors d = .ok (20 + 12 * neighbors.length, d') ∧ d'.len = DGRAM_MAX_SIZE ∧
    CarriesMsg d'.mem 4 ⟨orig, .hello neighbors⟩ := by
  obtain ⟨d₁, hlen₁, htype, horig, hmake⟩ := @makeHello_start d orig c neighbors hlen
  obtain ⟨k, d₂, hbuild, hcount, hlen₂, hbefore, hholds⟩ :=
    @buildRecords_ok 12 putLink linkBytes 20 1780 putLink_eq linkBytes_length neighbors 0 d₁ hlen₁.symm
      (.inr (.inl (by omega)))
  have hk : k = neighbors.length := hcount.all (.inr (by omega))
  rw [hk, Nat.zero_add] at hbuild
  rw [hk, take_length] at hholds
  have hbig : DGRAM_MAX_SIZE = 1800 := rfl
  refine ⟨⟨store16 d₂.mem 6 (ntohs (BitVec.ofNat 16 (16 + 12 * neighbors.length))), d₂.len⟩, ?_, ?_,
    @carries_sized d₂.mem 4 ⟨orig, .hello neighbors⟩ ?_ ?_ hholds⟩
  · rw [hmake, olsrBuildHelloNeighbors, hbuild, ok_bind, set16_inside (by dsimp only; omega)]
    rfl
  · exact hlen₂.trans hlen₁
  · exact (hbefore 4 (by decide)).trans htype
  · rw [load32_congr (fun i hi => hbefore (8 + i) (by omega))]
    exact horig

lemma makeHello_outside (hlen : d.len = DGRAM_MAX_SIZE) (hN : 1780 ≤ 12 * neighbors.length) :
    makeHello orig c neighbors d = .error .writeOutside := by
  obtain ⟨d₁, hlen₁, -, -, hmake⟩ := @makeHello_start d orig c neighbors hlen
  have hbad : ¬BuildOk 12 1780 0 neighbors.length := by
    rintro (hzero | hshort | ⟨j, hwhole⟩)
    · omega
    · omega
    · omega
  have hbuild := @buildRecords_outside 12 putLink linkBytes 20 1780 putLink_eq linkBytes_length neighbors 0 d₁
    hlen₁.symm hbad
  rw [hmake, olsrBuildHelloNeighbors, hbuild]
  rfl

def otherLocals (vif : Nat) (locals : List OlsrEntry) : List OlsrEntry :=
  locals.filter (fun e => e.iface ≠ some vif)

lemma makeMid_start (hlen : d.len = DGRAM_MAX_SIZE) {room : Nat} (hroom : size + 12 + room = DGRAM_MAX_SIZE) :
    ∃ d₁ : Dgram, d₁.len = DGRAM_MAX_SIZE ∧ (∀ i < size, d₁.mem i = d.mem i) ∧ d₁.mem size = OLSRMSG_MID ∧
      load32 d₁.mem (size + 4) = orig ∧
      makeMid size orig c vif locals d =
        (buildRecords 4 putAddress (size + 12) (room : Int) (otherLocals vif locals) 0 d₁ >>= fun x =>
          endMid size x.1 x.2) := by
  obtain ⟨d₁, hput, hlen₁, hbefore, htype, horig⟩ := @putMsg_ok d size OLSRMSG_MID (seconds2olsr 60) 0xff c.mid orig
    (by omega)
  have hsize : ((DGRAM_MAX_SIZE : Nat) : Int) - ((size + 12 : Nat) : Int) = (room : Int) := by omega
  refine ⟨d₁, hlen₁.trans hlen, hbefore, htype, horig, ?_⟩
  rw [makeMid, hput, ok_bind, olsrBuildMid, hsize]
  rfl

lemma makeMid_outside (hlen : d.len = DGRAM_MAX_SIZE) (hsize : DGRAM_MAX_SIZE < size + 12) :
    makeMid size orig c vif locals d = .error .writeOutside := by
  rw [makeMid, putMsg_outside (by omega)]
  rfl

def midSize (M : Nat) : Nat := if M = 0 then 0 else 12 + 4 * M

lemma makeMid_ok (hlen : d.len = DGRAM_MAX_SIZE) {room : Nat} (hroom : size + 12 + room = DGRAM_MAX_SIZE)
    (hM : (otherLocals vif locals).length = 0 ∨ 4 * (otherLocals vif locals).length < room) : ∃ d',
    makeMid size orig c vif locals d = .ok (size + midSize (otherLocals vif locals).length, d') ∧ d'.len =
    DGRAM_MAX_SIZE ∧ (∀ i < size, d'.mem i = d.mem i) ∧
    ((otherLocals vif locals).length ≠ 0 → CarriesMsg d'.mem size ⟨orig, .mid (otherLocals vif locals)⟩) := by
  obtain ⟨d₁, hlen₁, hbefore₁, htype, horig, hmake⟩ := @makeMid_start d orig c locals vif size hlen room hroom
  obtain ⟨k, d₂, hbuild, hcount, hlen₂, hbefore, hholds⟩ :=
    @buildRecords_ok 4 putAddress addressBytes (size + 12) room (fun off e d => set32_put d off e.destination)
      addressBytes_length (otherLocals vif locals) 0 d₁ (hroom.trans hlen₁.symm)
      (hM.elim .inl (fun h => .inr (.inl (by omega))))
  have hk : k = (otherLocals vif locals).length := hcount.all (hM.imp_right (fun h => by omega))
  rw [hk, Nat.zero_add] at hbuild
  rw [hk, take_length, Nat.add_zero] at hholds
  have hkept (i : Nat) (hi : i < size + 12) : d₂.mem i = d₁.mem i := hbefore i (by omega)
  rw [hmake, hbuild, ok_bind, endMid]
  dsimp only
  by_cases hzero : (otherLocals vif locals).length = 0
  · rw [if_pos (by omega), midSize, if_pos hzero]
    refine ⟨d₂, rfl, hlen₂.trans hlen₁, ?_, fun hne => absurd hzero hne⟩
    intro i hi
    rw [hkept i (by omega), hbefore₁ i hi]
  rw [if_neg (by omega), midSize, if_neg hzero, set16_inside (by omega), ok_bind]
  refine ⟨⟨store16 d₂.mem (size + 2) (ntohs (BitVec.ofNat 16 (12 + 4 * (otherLocals vif locals).length))), d₂.len⟩,
    by rw [Nat.add_assoc]; rfl, hlen₂.trans hlen₁, ?_, fun _ =>
    @carries_sized d₂.mem size ⟨orig, .mid (otherLocals vif locals)⟩ ((hkept size (by omega)).trans htype) ?_ hholds⟩
  · intro i hi
    dsimp only
    rw [store16_outside _ _ (by omega), hkept i (by omega), hbefore₁ i hi]
  rw [load32_congr (fun i hi => hkept (size + 4 + i) (by omega))]
  exact horig

lemma makeMid_full (hlen : d.len = DGRAM_MAX_SIZE) {room : Nat} (hroom : size + 12 + room = DGRAM_MAX_SIZE)
    (hwhole : 4 ∣ room) (hpos : 0 < room) (hM : room ≤ 4 * (otherLocals vif locals).length) : ∃ d',
    makeMid size orig c vif locals d = .ok (if room = 4 then size else DGRAM_MAX_SIZE - 4, d') ∧ d'.len =
    DGRAM_MAX_SIZE := by
  obtain ⟨d₁, hlen₁, -, -, -, hmake⟩ := @makeMid_start d orig c locals vif size hlen room hroom
  obtain ⟨j, rfl⟩ := hwhole
  obtain ⟨i, rfl⟩ : ∃ i, j = i + 1 := ⟨j - 1, by omega⟩
  obtain ⟨k, d₂, hbuild, hcount, hlen₂, -, -⟩ :=
    @buildRecords_ok 4 putAddress addressBytes (size + 12) (4 * (i + 1)) (fun off e d => set32_put d off e.destination)
      addressBytes_length (otherLocals vif locals) 0 d₁ (hroom.trans hlen₁.symm)
      (.inr (.inr ⟨i, Nat.zero_add _⟩))
  have hk := hcount.full (by omega) (by omega)
  rw [Nat.zero_add] at hbuild
  rw [hmake, hbuild, ok_bind, endMid]
  dsimp only
  by_cases hzero : 4 * k = 0
  · rw [if_pos hzero, if_pos (by omega)]
    exact ⟨d₂, rfl, hlen₂.trans hlen₁⟩
  rw [if_neg hzero, if_neg (by omega), set16_inside (by omega), ok_bind]
  have hend : size + 12 + 4 * k = DGRAM_MAX_SIZE - 4 := by omega
  rw [hend]
  exact ⟨_, rfl, hlen₂.trans hlen₁⟩

lemma makeTc_start (hlen : d.len = DGRAM_MAX_SIZE) {room : Nat} (hroom : size + 16 + room = DGRAM_MAX_SIZE) :
    ∃ d₁ : Dgram, d₁.len = DGRAM_MAX_SIZE ∧ (∀ i < size, d₁.mem i = d.mem i) ∧ d₁.mem size = OLSRMSG_TC ∧
      load32 d₁.mem (size + 4) = orig ∧ load16 d₁.mem (size + 12) = ntohs ansn ∧
      makeTc size orig c ansn neighbors d =
        (buildRecords 8 putNeighbor (size + 16) (room : Int) neighbors 0 d₁ >>= fun x =>
          x.2.set16 (size + 2) (ntohs (BitVec.ofNat 16 (16 + x.1))) >>= fun d => pure (size + 16 + x.1, d)) := by
  obtain ⟨d₀, hput, hlen₀, hbefore, htype, horig⟩ := @putMsg_ok d size OLSRMSG_TC (seconds2olsr DEFAULT_VTIME) 0xff
    c.tc orig (by omega)
  have hsize : ((DGRAM_MAX_SIZE : Nat) : Int) - ((size + 16 : Nat) : Int) = (room : Int) := by omega
  refine ⟨⟨store16 d₀.mem (size + 12) (ntohs ansn), d₀.len⟩, hlen₀.trans hlen, ?_, ?_, ?_, load16_store16 _ _, ?_⟩
  · intro i hi
    dsimp only
    rw [store16_outside _ _ (by omega), hbefore i hi]
  · dsimp only
    rw [store16_outside _ _ (by omega), htype]
  · rw [← horig]
    exact load32_congr (fun i hi => store16_outside _ _ (by omega))
  · rw [makeTc, hput, ok_bind, set16_inside (by omega), ok_bind, olsrBuildTcNeighbors, hsize]

lemma makeTc_headerOutside (hlen : d.len = DGRAM_MAX_SIZE) (hsize : DGRAM_MAX_SIZE < size + 14) :
    makeTc size orig c ansn neighbors d = .error .writeOutside := by
  rw [makeTc]
  by_cases hmsg : size + 12 ≤ DGRAM_MAX_SIZE
  · obtain ⟨d₀, hput, hlen₀, -, -, -⟩ := @putMsg_ok d size OLSRMSG_TC (seconds2olsr DEFAULT_VTIME) 0xff c.tc orig
      (by omega)
    have hansn : d₀.set16 (size + 12) (ntohs ansn) = .error .writeOutside :=
      @put_outside d₀ (size + 12) (bytes16 (ntohs ansn)) (by change d₀.len < size + 12 + 2; omega)
    rw [hput, ok_bind, hansn]
    rfl
  rw [putMsg_outside (by omega)]
  rfl

lemma makeTc_ok (hlen : d.len = DGRAM_MAX_SIZE) {room : Nat} (hroom : size + 16 + room = DGRAM_MAX_SIZE)
    (hN : BuildOk 8 room 0 neighbors.length) : ∃ k d', makeTc size orig c ansn neighbors d =
    .ok (size + 16 + 8 * k, d') ∧ BuildCount 8 room 0 neighbors.length k ∧ d'.len = DGRAM_MAX_SIZE ∧
    (∀ i < size, d'.mem i = d.mem i) ∧ CarriesMsg d'.mem size ⟨orig, .tc ansn (neighbors.take k)⟩ := by
  obtain ⟨d₁, hlen₁, hbefore₁, htype, horig, hansn, hmake⟩ :=
    @makeTc_start d orig c neighbors size ansn hlen room hroom
  obtain ⟨k, d₂, hbuild, hcount, hlen₂, hbefore, hholds⟩ :=
    @buildRecords_ok 8 putNeighbor neighborBytes (size + 16) room putNeighbor_eq neighborBytes_length neighbors 0 d₁
      (hroom.trans hlen₁.symm) hN
  rw [Nat.zero_add] at hbuild
  rw [Nat.add_zero] at hholds
  have hkept (i : Nat) (hi : i < size + 16) : d₂.mem i = d₁.mem i := hbefore i (by omega)
  have htake : (neighbors.take k).length = k := length_take_of_le hcount.le
  have hmsg : OlsrBody.size (.tc ansn (neighbors.take k)) = 16 + 8 * k := by rw [OlsrBody.size, htake]
  refine ⟨k, ⟨store16 d₂.mem (size + 2) (ntohs (BitVec.ofNat 16 (16 + 8 * k))), d₂.len⟩, ?_, hcount,
    hlen₂.trans hlen₁, ?_, ?_⟩
  · rw [hmake, hbuild, ok_bind, set16_inside (by dsimp only; omega)]
    rfl
  · intro i hi
    dsimp only
    rw [store16_outside _ _ (by omega), hkept i (by omega), hbefore₁ i hi]
  rw [← hmsg]
  refine @carries_sized d₂.mem size ⟨orig, .tc ansn (neighbors.take k)⟩ ((hkept size (by omega)).trans htype) ?_
    ⟨?_, hholds⟩
  · exact (load32_congr (fun i hi => hkept (size + 4 + i) (by omega))).trans horig
  · exact (load16_congr (fun i hi => hkept (size + 12 + i) (by omega))).trans hansn

lemma makeTc_outside (hlen : d.len = DGRAM_MAX_SIZE) {room : Nat} (hroom : size + 16 + room = DGRAM_MAX_SIZE)
    (hN : ¬BuildOk 8 room 0 neighbors.length) : makeTc size orig c ansn neighbors d = .error .writeOutside := by
  obtain ⟨d₁, hlen₁, -, -, -, -, hmake⟩ := @makeTc_start d orig c neighbors size ansn hlen room hroom
  have hbuild := @buildRecords_outside 8 putNeighbor neighborBytes (size + 16) room putNeighbor_eq
    neighborBytes_length neighbors 0 d₁ (hroom.trans hlen₁.symm) hN
  rw [hmake, hbuild]
  rfl

end Make

/-! ### Datagrams -/

def bytesBeforeTc (N M : Nat) : Nat := 20 + 12 * N + midSize M

/-- The datagram has room for the header of the TC message, and behind it for all neighbours, or else for a whole
number of them. -/
structure DgramFits (N M : Nat) : Prop where
  header : bytesBeforeTc N M ≤ 1784
  neighbors : N = 0 ∨ bytesBeforeTc N M + 8 * N < 1784 ∨ (bytesBeforeTc N M < 1784 ∧ 8 ∣ 1784 - bytesBeforeTc N M)

/-- How many neighbours the TC message tells: all, or all that fit but the last one. -/
def tcCount (N M : Nat) : Nat :=
  if N = 0 ∨ bytesBeforeTc N M + 8 * N < 1784 then N else (1784 - bytesBeforeTc N M) / 8 - 1

lemma DgramFits.mid {N M : Nat} (h : DgramFits N M) : M = 0 ∨ 4 * M < 1768 - 12 * N := by
  have hheader := h.header
  rw [bytesBeforeTc, midSize] at hheader
  split at hheader
  · next hzero => exact .inl hzero
  · exact .inr (by omega)

lemma dgramFits_iff {N M : Nat} :
    DgramFits N M ↔ bytesBeforeTc N M ≤ 1784 ∧ BuildOk 8 (1784 - bytesBeforeTc N M) 0 N := by
  constructor
  · rintro ⟨hheader, hzero | hshort | ⟨hlt, j, hwhole⟩⟩
    · exact ⟨hheader, .inl hzero⟩
    · exact ⟨hheader, .inr (.inl (by omega))⟩
    · exact ⟨hheader, .inr (.inr ⟨j - 1, by omega⟩)⟩
  rintro ⟨hheader, hzero | hshort | ⟨j, hwhole⟩⟩
  · exact ⟨hheader, .inl hzero⟩
  · exact ⟨hheader, .inr (.inl (by omega))⟩
  · exact ⟨hheader, .inr (.inr ⟨by omega, j + 1, by omega⟩)⟩

lemma DgramFits.count {N M k : Nat} (h : DgramFits N M) (hcount : BuildCount 8 (1784 - bytesBeforeTc N M) 0 N k) :
    tcCount N M = k ∧ bytesBeforeTc N M + 16 + 8 * k ≤ DGRAM_MAX_SIZE := by
  have hbig : DGRAM_MAX_SIZE = 1800 := rfl
  have hheader := h.header
  rw [tcCount]
  split
  · next hall =>
    have hk : k = N := hcount.all (by omega)
    exact ⟨hk.symm, by omega⟩
  next hnot =>
  have hfull := hcount.full (by omega) (by omega)
  exact ⟨by omega, by omega⟩

/-- The messages of a datagram, the last one with as many neighbours as given. -/
def advertised (orig : BitVec 32) (ansn : BitVec 16) (vif : Nat) (locals neighbors : List OlsrEntry) (k : Nat) :
    List OlsrMsg :=
  ⟨orig, .hello neighbors⟩ ::
    ((if otherLocals vif locals = [] then [] else [⟨orig, .mid (otherLocals vif locals)⟩]) ++
      [⟨orig, .tc ansn (neighbors.take k)⟩])

def TilesFrom (mem : Mem) (len : Nat) : Nat → List OlsrMsg → Prop
  | off, [] => off = len
  | off, m :: ms => CarriesMsg mem off m ∧ TilesFrom mem len (off + m.body.size) ms

lemma TilesFrom.congr {mem mem' : Mem} {len off : Nat} {ms : List OlsrMsg} (h : TilesFrom mem len off ms)
    (heq : ∀ i, off ≤ i → i < len → mem' i = mem i) : off ≤ len ∧ TilesFrom mem' len off ms := by
  induction ms generalizing off with
  | nil => exact ⟨Nat.le_of_eq h, h⟩
  | cons m ms ih =>
    obtain ⟨hm, hms⟩ := h
    obtain ⟨hle, hms⟩ := ih hms (fun i hi hlen => heq i (by omega) hlen)
    exact ⟨by omega, hm.congr (fun i hi hlt => heq i hi (by omega)), hms⟩

section Messages

variable {d : Dgram} {orig : BitVec 32} {c : OlsrCounters} {neighbors locals : List OlsrEntry} {vif : Nat}
  {ansn pktCounter : BitVec 16}

lemma tilesFrom_advertised {mem : Mem} {M k : Nat} (hM : (otherLocals vif locals).length = M) (hk : k ≤ neighbors.length)
    (hhello : CarriesMsg mem 4 ⟨orig, .hello neighbors⟩)
    (hmid : M ≠ 0 → CarriesMsg mem (20 + 12 * neighbors.length) ⟨orig, .mid (otherLocals vif locals)⟩)
    (htc : CarriesMsg mem (bytesBeforeTc neighbors.length M) ⟨orig, .tc ansn (neighbors.take k)⟩) :
    TilesFrom mem (bytesBeforeTc neighbors.length M + 16 + 8 * k) 4 (advertised orig ansn vif locals neighbors k) := by
  have hnext : 4 + (16 + 12 * neighbors.length) = 20 + 12 * neighbors.length := by omega
  have htail : TilesFrom mem (bytesBeforeTc neighbors.length M + 16 + 8 * k) (bytesBeforeTc neighbors.length M)
      [⟨orig, .tc ansn (neighbors.take k)⟩] := by
    refine ⟨htc, ?_⟩
    change bytesBeforeTc neighbors.length M + (16 + 8 * (neighbors.take k).length) = _
    rw [length_take_of_le hk, Nat.add_assoc]
  refine ⟨hhello, ?_⟩
  change TilesFrom mem _ (4 + (16 + 12 * neighbors.length)) _
  rw [hnext]
  by_cases hnone : otherLocals vif locals = []
  · have hzero : M = 0 := by rw [← hM, hnone, length_nil]
    rw [if_pos hnone, nil_append]
    subst hzero
    exact htail
  have hne : M ≠ 0 := by
    rw [← hM]
    exact fun hzero => hnone (length_eq_zero_iff.mp hzero)
  have hbytes : 20 + 12 * neighbors.length + (12 + 4 * M) = bytesBeforeTc neighbors.length M := by
    rw [bytesBeforeTc, midSize, if_neg hne]
  rw [if_neg hnone]
  refine ⟨hmid hne, ?_⟩
  change TilesFrom mem _ (20 + 12 * neighbors.length + (12 + 4 * (otherLocals vif locals).length)) _
  rw [hM, hbytes]
  exact htail

lemma makeMessages_ok (hlen : d.len = DGRAM_MAX_SIZE)
    (h : DgramFits neighbors.length (otherLocals vif locals).length) :
    ∃ size d', makeMessages orig vif c ansn pktCounter locals neighbors d = .ok (size, d') ∧
      4 ≤ size ∧ size ≤ DGRAM_MAX_SIZE ∧ load16 d'.mem 0 = ntohs (BitVec.ofNat 16 size) ∧
      TilesFrom d'.mem size 4 (advertised orig ansn vif locals neighbors
        (tcCount neighbors.length (otherLocals vif locals).length)) := by
  obtain ⟨hheader, hbuild⟩ := dgramFits_iff.mp h
  have hmid := h.mid
  generalize hM : (otherLocals vif locals).length = M at h hheader hbuild hmid ⊢
  have hbig : DGRAM_MAX_SIZE = 1800 := rfl
  have hbytes : bytesBeforeTc neighbors.length M = 20 + 12 * neighbors.length + midSize M := rfl
  obtain ⟨d₁, hhello, hlen₁, hcarries₁⟩ := @makeHello_ok d orig c neighbors hlen (by omega)
  obtain ⟨d₂, hmidMade, hlen₂, hbefore₂, hcarries₂⟩ :=
    @makeMid_ok d₁ orig c locals vif (20 + 12 * neighbors.length) hlen₁ (1768 - 12 * neighbors.length) (by omega)
      (by rwa [hM])
  rw [hM] at hmidMade hcarries₂
  obtain ⟨k, d₃, htc, hcount, hlen₃, hbefore₃, hcarries₃⟩ :=
    @makeTc_ok d₂ orig c neighbors (bytesBeforeTc neighbors.length M) ansn hlen₂
      (1784 - bytesBeforeTc neighbors.length M) (by omega) hbuild
  obtain ⟨htold, hend⟩ := h.count hcount
  let mem := store16 (store16 d₃.mem 0 (ntohs (BitVec.ofNat 16 (bytesBeforeTc neighbors.length M + 16 + 8 * k)))) 2
    (ntohs pktCounter)
  have hmem (i : Nat) (hi : 4 ≤ i) : mem i = d₃.mem i := by
    change store16 (store16 d₃.mem 0 _) 2 _ i = d₃.mem i
    rw [store16_outside _ _ (by omega), store16_outside _ _ (by omega)]
  rw [htold]
  refine ⟨bytesBeforeTc neighbors.length M + 16 + 8 * k, ⟨mem, d₃.len⟩, ?_, by omega, hend, ?_, ?_⟩
  · rw [makeMessages, hhello, ok_bind]
    dsimp only
    rw [hmidMade, ok_bind]
    dsimp only
    rw [← hbytes, htc, ok_bind]
    dsimp only
    rw [set16_inside (by omega), ok_bind, set16_inside (by dsimp only; omega)]
    rfl
  · rw [← @load16_store16 d₃.mem 0 (ntohs (BitVec.ofNat 16 (bytesBeforeTc neighbors.length M + 16 + 8 * k)))]
    exact load16_congr (fun i hi => store16_outside _ _ (by omega))
  refine tilesFrom_advertised hM hcount.le (hcarries₁.congr ?_) (fun hne => (hcarries₂ hne).congr ?_)
    (hcarries₃.congr (fun i hi _ => hmem i (by omega)))
  · intro i hi hlt
    have hlt : i < 4 + (16 + 12 * neighbors.length) := hlt
    change mem i = d₁.mem i
    rw [hmem i hi, hbefore₃ i (by omega), hbefore₂ i (by omega)]
  intro i hi hlt
  have hlt : i < 20 + 12 * neighbors.length + (12 + 4 * (otherLocals vif locals).length) := hlt
  rw [hM] at hlt
  rw [midSize, if_neg hne] at hbytes
  change mem i = d₂.mem i
  rw [hmem i (by omega), hbefore₃ i (by omega)]

lemma makeMid_far (hlen : d.len = DGRAM_MAX_SIZE) (hheader : 20 + 12 * neighbors.length + 12 ≤ DGRAM_MAX_SIZE)
    (h : ¬DgramFits neighbors.length (otherLocals vif locals).length) : ∃ size d',
    makeMid (20 + 12 * neighbors.length) orig c vif locals d = .ok (size, d') ∧ d'.len = DGRAM_MAX_SIZE ∧
    (DGRAM_MAX_SIZE < size + 14 ∨ (size ≤ 1784 ∧ ¬BuildOk 8 (1784 - size) 0 neighbors.length)) := by
  have hbig : DGRAM_MAX_SIZE = 1800 := rfl
  have hroom : 20 + 12 * neighbors.length + 12 + (1768 - 12 * neighbors.length) = DGRAM_MAX_SIZE := by omega
  by_cases hM : (otherLocals vif locals).length = 0 ∨
      4 * (otherLocals vif locals).length < 1768 - 12 * neighbors.length
  · obtain ⟨d', hmade, hlen', -, -⟩ := @makeMid_ok d orig c locals vif _ hlen _ hroom hM
    refine ⟨_, d', hmade, hlen', ?_⟩
    change DGRAM_MAX_SIZE < bytesBeforeTc _ _ + 14 ∨ (bytesBeforeTc _ _ ≤ 1784 ∧ ¬BuildOk 8 (1784 - bytesBeforeTc _ _) 0 _)
    by_cases hle : bytesBeforeTc neighbors.length (otherLocals vif locals).length ≤ 1784
    · exact .inr ⟨hle, fun hbuild => h (dgramFits_iff.mpr ⟨hle, hbuild⟩)⟩
    left
    rw [bytesBeforeTc, midSize] at hle ⊢
    split at hle
    · next hzero => rw [if_pos hzero]; omega
    · next hne => rw [if_neg hne]; omega
  obtain ⟨hne, hlong⟩ := not_or.mp hM
  obtain ⟨d', hmade, hlen'⟩ := @makeMid_full d orig c locals vif _ hlen _ hroom (by omega) (by omega)
    (Nat.not_lt.mp hlong)
  refine ⟨_, d', hmade, hlen', ?_⟩
  split
  · refine .inr ⟨by omega, ?_⟩
    rintro (hzero | hshort | ⟨j, hwhole⟩) <;> omega
  · exact .inl (by omega)

lemma makeMessages_outside (hlen : d.len = DGRAM_MAX_SIZE)
    (h : ¬DgramFits neighbors.length (otherLocals vif locals).length) :
    makeMessages orig vif c ansn pktCounter locals neighbors d = .error .writeOutside := by
  have hbig : DGRAM_MAX_SIZE = 1800 := rfl
  rw [makeMessages]
  by_cases hN : 12 * neighbors.length < 1780
  · obtain ⟨d₁, hhello, hlen₁, -⟩ := @makeHello_ok d orig c neighbors hlen hN
    rw [hhello, ok_bind]
    dsimp only
    by_cases hheader : 20 + 12 * neighbors.length + 12 ≤ DGRAM_MAX_SIZE
    · obtain ⟨size, d₂, hmade, hlen₂, hbad⟩ := @makeMid_far d₁ orig c neighbors locals vif hlen₁ hheader h
      have htc : makeTc size orig c ansn neighbors d₂ = .error .writeOutside := by
        rcases hbad with hfar | ⟨hle, hbad⟩
        · exact makeTc_headerOutside hlen₂ hfar
        · exact makeTc_outside hlen₂ (by omega) hbad
      rw [hmade, ok_bind]
      dsimp only
      rw [htc]
      rfl
    rw [makeMid_outside hlen₁ (by omega)]
    rfl
  rw [makeHello_outside hlen (Nat.not_lt.mp hN)]
  rfl

end Messages

end Vde
