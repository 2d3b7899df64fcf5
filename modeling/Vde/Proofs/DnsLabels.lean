import Vde.Proofs.DnsSafety

/-!
# The way through a compressed name

A name is read along a way through the message: past each label to the place behind it, and from a
pointer to the place that it points to. The second byte of a pointer is read as a `char`, which is
signed, so a byte of 128 or more leads 256 bytes too far back.
-/

namespace Vde

open List Option

/-- The ways of the names of a message, for pointers that lead where `offset` says. -/
inductive Way (offset : UInt8 → UInt8 → Nat) (msg : List UInt8) : Nat → List Nat → Prop
  | root {p : Nat} (h : msg[p]? = some 0) : Way offset msg p [p]
  | label {p : Nat} {b : UInt8} {ps : List Nat} (h : msg[p]? = some b) (hpos : 0 < b.toNat)
      (hlt : b.toNat < 64) (hrest : Way offset msg (p + b.toNat + 1) ps) : Way offset msg p (p :: ps)
  | pointer {p : Nat} {b c : UInt8} {ps : List Nat} (h : msg[p]? = some b) (hge : 64 ≤ b.toNat)
      (hlow : msg[p + 1]? = some c) (hrest : Way offset msg (offset b c) ps) : Way offset msg p (p :: ps)

def charOffset (b c : UInt8) : Nat := (charToUnsigned b % 64 * 256 + charToUnsigned c) % 4294967296

/-- The low 14 bits of a pointer. A first byte with other top bits than `11` is no pointer of DNS;
`decompress_label` follows it all the same. -/
def lowBits (b c : UInt8) : Nat :=
  if 192 ≤ b.toNat then b.toNat % 64 * 256 + c.toNat else charOffset b c

def placeBytes (msg : List UInt8) (p : Nat) : List UInt8 :=
  let n := (msg.getD p 0).toNat
  if 0 < n ∧ n < 64 then (msg.drop p).take (n + 1) else []

def wayBytes (msg : List UInt8) (way : List Nat) : List UInt8 := (way.map (placeBytes msg)).flatten

def pointersOn (msg : List UInt8) (way : List Nat) : Nat :=
  way.countP (fun p => 64 ≤ (msg.getD p 0).toNat)

/-- The variables of the loop of `decompress_label` when a turn begins. -/
structure LabelState where
  ptr : Nat
  followed : Nat
  buf : List UInt8
  deriving DecidableEq, Repr

def decompressTurn (msg : List UInt8) (s : LabelState) : Except Fault (LabelState ⊕ Option (List UInt8)) := do
  let b ← readByte msg s.ptr
  let chunklen := charToUnsigned b
  if chunklen = 0 then return .inr (if s.buf = [] then none else some (s.buf ++ [0]))
  else if 63 < chunklen then
    if (msg.length : Int) - 1 ≤ s.ptr then return .inr none
    else if 20 < s.followed then return .inr none
    else
      let low ← readByte msg (s.ptr + 1)
      if msg.length ≤ charOffset b low then return .inr none
      else return .inl ⟨charOffset b low, s.followed + 1, s.buf⟩
  else if msg.length ≤ s.ptr + chunklen + 1 then return .inr none
  else
    let label ← readBlock msg s.ptr (chunklen + 1)
    return .inl ⟨s.ptr + chunklen + 1, s.followed, s.buf ++ label⟩

def Comes (msg : List UInt8) (lbl : Nat) (t : LabelState) : Prop :=
  Visits (fun _ => decompressTurn msg) ⟨lbl, 0, []⟩ t

/-- `decompress_label` at `lbl` ends, no turn reads outside of the message, and a name that it returns
is the one on the way along the low 14 bits of the pointers, with each of them followed there. -/
structure LabelRight (msg : List UInt8) (lbl : Nat) : Prop where
  ends : ∃ t r, Comes msg lbl t ∧ decompressTurn msg t = .ok (.inr r) ∧ decompressLabel msg lbl = .ok r
  inside : ∀ t, Comes msg lbl t → ∃ x, decompressTurn msg t = .ok x
  name : ∀ name, decompressLabel msg lbl = .ok (some name) →
    (∃ way, Way lowBits msg lbl way ∧ name = wayBytes msg way ++ [0]) ∧
    ∀ t u b c, Comes msg lbl t → decompressTurn msg t = .ok (.inl u) → msg[t.ptr]? = some b →
      192 ≤ b.toNat → msg[t.ptr + 1]? = some c → u.ptr = b.toNat % 64 * 256 + c.toNat

/-- A way to the end of a name with at most 21 pointers and at least one label passes no pointer whose
low byte is 128 or more. -/
def LowBytesSmall (msg : List UInt8) (lbl : Nat) : Prop :=
  ∀ way, Way charOffset msg lbl way → pointersOn msg way ≤ 21 → wayBytes msg way ≠ [] →
    ∀ p ∈ way, ∀ b c, msg[p]? = some b → 192 ≤ b.toNat → msg[p + 1]? = some c → c.toNat < 128

/-! ## The bytes of a way -/

variable {b : UInt8}

lemma charToUnsigned_small (h : b.toNat < 128) : charToUnsigned b = b.toNat := if_pos h

lemma charToUnsigned_zero : charToUnsigned b = 0 ↔ b = 0 := by
  rw [charToUnsigned, ← UInt8.toNat_inj]
  split
  · rfl
  next h =>
  constructor
  · intro habs
    omega
  intro hb
  rw [hb] at h
  exact absurd (by decide) h

lemma charToUnsigned_large : 63 < charToUnsigned b ↔ 64 ≤ b.toNat := by
  rw [charToUnsigned]
  split
  · omega
  · omega

lemma readByte_eq_ok {msg : List UInt8} {p : Nat} : readByte msg p = .ok b ↔ msg[p]? = some b := by
  rw [readByte]
  cases h : msg[p]? with
  | none => simp
  | some b' => simp

lemma getD_of_getElem? {msg : List UInt8} {p : Nat} (h : msg[p]? = some b) : msg.getD p 0 = b := by
  rw [getD_eq_getElem?_getD, h]
  rfl

lemma wayBytes_cons (msg : List UInt8) (p : Nat) (ps : List Nat) :
    wayBytes msg (p :: ps) = placeBytes msg p ++ wayBytes msg ps := by
  rw [wayBytes, map_cons, flatten_cons, wayBytes]

lemma placeBytes_label {msg : List UInt8} {p : Nat} (h : msg[p]? = some b) (hpos : 0 < b.toNat)
    (hlt : b.toNat < 64) : placeBytes msg p = (msg.drop p).take (b.toNat + 1) := by
  rw [placeBytes, getD_of_getElem? h, if_pos ⟨hpos, hlt⟩]

lemma placeBytes_pointer {msg : List UInt8} {p : Nat} (h : msg[p]? = some b) (hge : 64 ≤ b.toNat) :
    placeBytes msg p = [] := by
  rw [placeBytes, getD_of_getElem? h, if_neg (by omega)]

lemma wayBytes_root {msg : List UInt8} {p : Nat} (h : msg[p]? = some 0) : wayBytes msg [p] = [] := by
  rw [wayBytes_cons, placeBytes, getD_of_getElem? h]
  rfl

lemma pointersOn_root {msg : List UInt8} {p : Nat} (h : msg[p]? = some 0) : pointersOn msg [p] = 0 := by
  rw [pointersOn, countP_singleton, getD_of_getElem? h]
  rfl

lemma pointersOn_label {msg : List UInt8} {p : Nat} (ps : List Nat) (h : msg[p]? = some b)
    (hlt : b.toNat < 64) : pointersOn msg (p :: ps) = pointersOn msg ps := by
  rw [pointersOn, countP_cons, getD_of_getElem? h, if_neg (by simpa using hlt), pointersOn, Nat.add_zero]

lemma pointersOn_pointer {msg : List UInt8} {p : Nat} (ps : List Nat) (h : msg[p]? = some b)
    (hge : 64 ≤ b.toNat) : pointersOn msg (p :: ps) = pointersOn msg ps + 1 := by
  rw [pointersOn, countP_cons, getD_of_getElem? h, if_pos (by simpa using hge), pointersOn]

section

variable {offset : UInt8 → UInt8 → Nat} {msg : List UInt8} {p : Nat} {way : List Nat}

section

variable (h : Way offset msg p way)

include h

lemma Way.inside : p < msg.length := by
  cases h with
  | root h => exact (List.getElem?_eq_some_iff.mp h).1
  | label h _ _ _ => exact (List.getElem?_eq_some_iff.mp h).1
  | pointer h _ _ _ => exact (List.getElem?_eq_some_iff.mp h).1

lemma Way.mem : p ∈ way := by
  cases h with
  | root _ => exact mem_cons_self
  | label _ _ _ _ => exact mem_cons_self
  | pointer _ _ _ _ => exact mem_cons_self

lemma Way.congr {offset' : UInt8 → UInt8 → Nat}
    (heq : ∀ q ∈ way, ∀ b c, msg[q]? = some b → 64 ≤ b.toNat → msg[q + 1]? = some c → offset b c = offset' b c) :
    Way offset' msg p way := by
  induction h with
  | root h => exact .root h
  | label h hpos hlt hrest ih =>
    exact .label h hpos hlt (ih (fun q hq => heq q (mem_cons_of_mem _ hq)))
  | @pointer p b c ps h hge hlow hrest ih =>
    have hrest' := ih (fun q hq => heq q (mem_cons_of_mem _ hq))
    rw [heq p mem_cons_self b c h hge hlow] at hrest'
    exact .pointer h hge hlow hrest'

lemma Way.pointer_inv (hb : msg[p]? = some b) (hge : 64 ≤ b.toNat) :
    ∃ c ps, msg[p + 1]? = some c ∧ way = p :: ps ∧ Way offset msg (offset b c) ps := by
  cases h with
  | root h =>
    rw [h, some.injEq] at hb
    rw [← hb] at hge
    exact absurd hge (by decide)
  | label h _ hlt _ =>
    rw [h, some.injEq] at hb
    rw [hb] at hlt
    omega
  | @pointer _ b' c ps h _ hlow hrest =>
    rw [h, some.injEq] at hb
    rw [hb] at hrest
    exact ⟨c, ps, hlow, rfl, hrest⟩

lemma Way.label_inv (hb : msg[p]? = some b) (hpos : 0 < b.toNat)
    (hlt : b.toNat < 64) : ∃ ps, way = p :: ps ∧ Way offset msg (p + b.toNat + 1) ps := by
  cases h with
  | root h =>
    rw [h, some.injEq] at hb
    rw [← hb] at hpos
    exact absurd hpos (by decide)
  | @label _ b' ps h _ _ hrest =>
    rw [h, some.injEq] at hb
    rw [hb] at hrest
    exact ⟨ps, rfl, hrest⟩
  | pointer h hge _ _ =>
    rw [h, some.injEq] at hb
    rw [hb] at hge
    omega

lemma Way.root_inv (hb : msg[p]? = some 0) : way = [p] := by
  cases h with
  | root _ => rfl
  | label h hpos _ _ =>
    rw [h, some.injEq] at hb
    rw [hb] at hpos
    exact absurd hpos (by decide)
  | pointer h hge _ _ =>
    rw [h, some.injEq] at hb
    rw [hb] at hge
    exact absurd hge (by decide)

end

lemma Way.unique {way' : List Nat} (h : Way offset msg p way) (h' : Way offset msg p way') : way = way' := by
  induction h generalizing way' with
  | root hb => rw [h'.root_inv hb]
  | @label p b ps hb hpos hlt _ ih =>
    obtain ⟨qs, rfl, hrest⟩ := h'.label_inv hb hpos hlt
    rw [ih hrest]
  | @pointer p b c ps hb hge hc _ ih =>
    obtain ⟨c', qs, hc', rfl, hrest⟩ := h'.pointer_inv hb hge
    rw [hc, some.injEq] at hc'
    rw [← hc'] at hrest
    rw [ih hrest]

end

/-! ## The loop -/

/-- What a turn inside of the message does. It gives up where no way with 21 pointers in all goes
on. -/
inductive TurnCase (msg : List UInt8) (s : LabelState) : Prop
  | root (h : msg[s.ptr]? = some 0)
      (ht : decompressTurn msg s = .ok (.inr (if s.buf = [] then none else some (s.buf ++ [0]))))
  | label (b : UInt8) (h : msg[s.ptr]? = some b) (hpos : 0 < b.toNat) (hlt : b.toNat < 64)
      (hin : s.ptr + b.toNat + 1 < msg.length)
      (ht : decompressTurn msg s =
        .ok (.inl ⟨s.ptr + b.toNat + 1, s.followed, s.buf ++ placeBytes msg s.ptr⟩))
  | pointer (b c : UInt8) (h : msg[s.ptr]? = some b) (hge : 64 ≤ b.toNat) (hlow : msg[s.ptr + 1]? = some c)
      (hfew : s.followed ≤ 20) (hin : charOffset b c < msg.length)
      (ht : decompressTurn msg s = .ok (.inl ⟨charOffset b c, s.followed + 1, s.buf⟩))
  | stop (ht : decompressTurn msg s = .ok (.inr none))
      (hno : ∀ way, Way charOffset msg s.ptr way → 21 < s.followed + pointersOn msg way)

lemma turnCase {msg : List UInt8} {s : LabelState} (hin : s.ptr < msg.length) : TurnCase msg s := by
  have hb : msg[s.ptr]? = some msg[s.ptr] := getElem?_eq_getElem hin
  generalize msg[s.ptr] = b at hb
  have hread := readByte_eq_ok.mpr hb
  by_cases hzero : b = 0
  · rw [hzero] at hb
    apply TurnCase.root hb
    rw [decompressTurn, hread, ok_bind, if_pos (charToUnsigned_zero.mpr hzero)]
    rfl
  have hpos : 0 < b.toNat := by
    have hne : b.toNat ≠ 0 := fun h => hzero (UInt8.toNat_inj.mp h)
    omega
  by_cases hge : 64 ≤ b.toNat
  · by_cases hend : (msg.length : Int) - 1 ≤ s.ptr
    · apply TurnCase.stop
      · rw [decompressTurn, hread, ok_bind, if_neg (fun h => hzero (charToUnsigned_zero.mp h)),
          if_pos (charToUnsigned_large.mpr hge), if_pos hend]
        rfl
      intro way hway
      obtain ⟨c, ps, hlow, -, -⟩ := hway.pointer_inv hb hge
      have hlt := (List.getElem?_eq_some_iff.mp hlow).1
      omega
    by_cases hmany : 20 < s.followed
    · apply TurnCase.stop
      · rw [decompressTurn, hread, ok_bind, if_neg (fun h => hzero (charToUnsigned_zero.mp h)),
          if_pos (charToUnsigned_large.mpr hge), if_neg hend, if_pos hmany]
        rfl
      intro way hway
      obtain ⟨c, ps, -, hcons, -⟩ := hway.pointer_inv hb hge
      rw [hcons, pointersOn_pointer ps hb hge]
      omega
    have hnext : s.ptr + 1 < msg.length := by omega
    have hc : msg[s.ptr + 1]? = some msg[s.ptr + 1] := getElem?_eq_getElem hnext
    generalize msg[s.ptr + 1] = c at hc
    by_cases hbehind : msg.length ≤ charOffset b c
    · apply TurnCase.stop
      · rw [decompressTurn, hread, ok_bind, if_neg (fun h => hzero (charToUnsigned_zero.mp h)),
          if_pos (charToUnsigned_large.mpr hge), if_neg hend, if_neg hmany, readByte_eq_ok.mpr hc, ok_bind,
          if_pos hbehind]
        rfl
      intro way hway
      obtain ⟨c', ps, hlow, -, hrest⟩ := hway.pointer_inv hb hge
      rw [hc, some.injEq] at hlow
      rw [← hlow] at hrest
      have hlt := hrest.inside
      omega
    apply TurnCase.pointer b c hb hge hc (by omega) (by omega)
    rw [decompressTurn, hread, ok_bind, if_neg (fun h => hzero (charToUnsigned_zero.mp h)),
      if_pos (charToUnsigned_large.mpr hge), if_neg hend, if_neg hmany, readByte_eq_ok.mpr hc, ok_bind,
      if_neg hbehind]
    rfl
  · have hsmall : charToUnsigned b = b.toNat := charToUnsigned_small (by omega)
    have hplain : ¬63 < charToUnsigned b := fun h => hge (charToUnsigned_large.mp h)
    by_cases hbad : msg.length ≤ s.ptr + b.toNat + 1
    · apply TurnCase.stop
      · rw [decompressTurn, hread, ok_bind, if_neg (fun h => hzero (charToUnsigned_zero.mp h)), if_neg hplain,
          hsmall, if_pos hbad]
        rfl
      intro way hway
      obtain ⟨ps, -, hrest⟩ := hway.label_inv hb hpos (by omega)
      have hlt := hrest.inside
      omega
    have hblock : readBlock msg s.ptr (b.toNat + 1) = .ok (placeBytes msg s.ptr) := by
      rw [readBlock, if_pos (Or.inl (by omega)), placeBytes_label hb hpos (by omega)]
    apply TurnCase.label b hb hpos (by omega) (by omega)
    rw [decompressTurn, hread, ok_bind, if_neg (fun h => hzero (charToUnsigned_zero.mp h)), if_neg hplain,
      hsmall, if_neg hbad, hblock, ok_bind]
    rfl

lemma decompressLoop_turn (msg : List UInt8) (fuel : Nat) (s : LabelState) :
    decompressLoop msg (fuel + 1) s.ptr s.followed s.buf =
    decompressTurn msg s >>= Sum.elim (fun u => decompressLoop msg fuel u.ptr u.followed u.buf) pure := by
  rw [decompressLoop, decompressTurn]
  cases readByte msg s.ptr with
  | error e => rfl
  | ok b =>
    rw [ok_bind, ok_bind]
    dsimp only
    split
    · rfl
    split
    · split
      · rfl
      split
      · rfl
      cases readByte msg (s.ptr + 1) with
      | error e => rfl
      | ok c =>
        rw [ok_bind, ok_bind]
        rw [charOffset]
        split
        · rfl
        · rfl
    split
    · rfl
    cases readBlock msg s.ptr (charToUnsigned b + 1) with
    | error e => rfl
    | ok l => rfl

def turnsLeft (msg : List UInt8) (s : LabelState) : Nat :=
  (21 - s.followed) * (msg.length + 1) + (msg.length - s.ptr)

variable {t : LabelState}

section

variable {msg : List UInt8} {s : LabelState}

lemma turnsLeft_pos (h : s.ptr < msg.length) : 0 < turnsLeft msg s := by
  rw [turnsLeft]
  omega

lemma turnsLeft_label {n : Nat} {buf : List UInt8} (h : s.ptr < msg.length) :
    turnsLeft msg ⟨s.ptr + n + 1, s.followed, buf⟩ < turnsLeft msg s := by
  rw [turnsLeft, turnsLeft]
  dsimp only
  omega

lemma turnsLeft_pointer {p : Nat} {buf : List UInt8} (h : s.followed ≤ 20) :
    turnsLeft msg ⟨p, s.followed + 1, buf⟩ < turnsLeft msg s := by
  have hsucc : 21 - s.followed = 21 - (s.followed + 1) + 1 := by omega
  rw [turnsLeft, turnsLeft, hsucc, Nat.succ_mul]
  dsimp only
  omega

lemma visits_turn {u : LabelState} (h : Visits (fun _ => decompressTurn msg) s t)
    (ht : decompressTurn msg t = .ok (.inl u)) : Visits (fun _ => decompressTurn msg) s u :=
  .turn h (ends_of_forall (fun _ => ht))

lemma visits_inside (h : Visits (fun _ => decompressTurn msg) s t)
    (hs : s.ptr < msg.length) : t.ptr < msg.length := by
  apply @Visits.keeps _ _ _ _ s t (fun t => t.ptr < msg.length) h hs
  intro t u _ hin hturn
  obtain ⟨_, hturn⟩ := hturn.exists
  cases turnCase hin with
  | root _ ht =>
    rw [ht] at hturn
    cases hturn
  | label b _ _ _ hnext ht =>
    rw [ht] at hturn
    cases hturn
    exact hnext
  | pointer b c _ _ _ _ hnext ht =>
    rw [ht] at hturn
    cases hturn
    exact hnext
  | stop ht _ =>
    rw [ht] at hturn
    cases hturn

lemma decompressLoop_ends {fuel : Nat} (hin : s.ptr < msg.length) (hfuel : turnsLeft msg s ≤ fuel) : ∃ t r,
    Visits (fun _ => decompressTurn msg) s t ∧ decompressTurn msg t = .ok (.inr r) ∧
    decompressLoop msg fuel s.ptr s.followed s.buf = .ok r := by
  induction fuel generalizing s with
  | zero => exact absurd (turnsLeft_pos hin) (by omega)
  | succ fuel ih =>
    rw [decompressLoop_turn]
    cases turnCase hin with
    | root _ ht =>
      rw [ht]
      exact ⟨s, _, .start, ht, rfl⟩
    | label b _ _ _ hnext ht =>
      have hless := @turnsLeft_label msg s b.toNat (s.buf ++ placeBytes msg s.ptr) hin
      obtain ⟨t, r, hv, hr, hloop⟩ := @ih ⟨s.ptr + b.toNat + 1, s.followed, s.buf ++ placeBytes msg s.ptr⟩
        hnext (by omega)
      rw [ht]
      exact ⟨t, r, (visits_turn .start ht).trans hv, hr, hloop⟩
    | pointer b c _ _ _ hfew hnext ht =>
      have hless := @turnsLeft_pointer msg s (charOffset b c) s.buf hfew
      obtain ⟨t, r, hv, hr, hloop⟩ := @ih ⟨charOffset b c, s.followed + 1, s.buf⟩ hnext (by omega)
      rw [ht]
      exact ⟨t, r, (visits_turn .start ht).trans hv, hr, hloop⟩
    | stop ht _ =>
      rw [ht]
      exact ⟨s, none, .start, ht, rfl⟩

lemma decompressLoop_some_iff {fuel : Nat} {name : List UInt8} (hin : s.ptr < msg.length)
    (hfollowed : s.followed ≤ 21) (hfuel : turnsLeft msg s ≤ fuel) :
    decompressLoop msg fuel s.ptr s.followed s.buf = .ok (some name) ↔ ∃ way, Way charOffset msg s.ptr way ∧
    s.followed + pointersOn msg way ≤ 21 ∧ s.buf ++ wayBytes msg way ≠ [] ∧ name =
    s.buf ++ wayBytes msg way ++ [0] := by
  induction fuel generalizing s with
  | zero => exact absurd (turnsLeft_pos hin) (by omega)
  | succ fuel ih =>
    rw [decompressLoop_turn]
    cases turnCase hin with
    | root hb ht =>
      have hresult : decompressTurn msg s >>= Sum.elim (fun u => decompressLoop msg fuel u.ptr u.followed u.buf)
          pure = .ok (if s.buf = [] then none else some (s.buf ++ [0])) := by
        rw [ht]
        rfl
      rw [hresult, Except.ok.injEq]
      constructor
      · intro h
        by_cases hempty : s.buf = []
        · rw [if_pos hempty] at h
          exact absurd h (by simp)
        rw [if_neg hempty, some.injEq] at h
        refine ⟨[s.ptr], .root hb, ?_, ?_, ?_⟩
        · rw [pointersOn_root hb]
          exact hfollowed
        · rw [wayBytes_root hb, append_nil]
          exact hempty
        · rw [wayBytes_root hb, append_nil, h]
      rintro ⟨way, hway, -, hne, hname⟩
      rw [hway.root_inv hb, wayBytes_root hb, append_nil] at hne hname
      rw [if_neg hne, hname]
    | label b hb hpos hlt hnext ht =>
      have hless := @turnsLeft_label msg s b.toNat (s.buf ++ placeBytes msg s.ptr) hin
      have hrest := @ih ⟨s.ptr + b.toNat + 1, s.followed, s.buf ++ placeBytes msg s.ptr⟩ hnext hfollowed (by omega)
      rw [ht]
      refine hrest.trans ?_
      constructor
      · rintro ⟨ps, hway, hfew, hne, hname⟩
        refine ⟨s.ptr :: ps, .label hb hpos hlt hway, ?_, ?_, ?_⟩
        · rw [pointersOn_label ps hb hlt]
          exact hfew
        · rw [wayBytes_cons, ← append_assoc]
          exact hne
        rw [wayBytes_cons, ← append_assoc]
        exact hname
      rintro ⟨way, hway, hfew, hne, hname⟩
      obtain ⟨ps, rfl, hrest⟩ := hway.label_inv hb hpos hlt
      rw [pointersOn_label ps hb hlt] at hfew
      rw [wayBytes_cons, ← append_assoc] at hne hname
      exact ⟨ps, hrest, hfew, hne, hname⟩
    | pointer b c hb hge hc hless20 hnext ht =>
      have hless := @turnsLeft_pointer msg s (charOffset b c) s.buf hless20
      have hrest := @ih ⟨charOffset b c, s.followed + 1, s.buf⟩ hnext (Nat.succ_le_succ hless20) (by omega)
      rw [ht]
      refine hrest.trans ?_
      constructor
      · rintro ⟨ps, hway, hfew, hne, hname⟩
        replace hfew : s.followed + 1 + pointersOn msg ps ≤ 21 := hfew
        refine ⟨s.ptr :: ps, .pointer hb hge hc hway, ?_, ?_, ?_⟩
        · rw [pointersOn_pointer ps hb hge]
          omega
        · rw [wayBytes_cons, placeBytes_pointer hb hge, nil_append]
          exact hne
        rw [wayBytes_cons, placeBytes_pointer hb hge, nil_append]
        exact hname
      rintro ⟨way, hway, hfew, hne, hname⟩
      obtain ⟨c', ps, hc', rfl, hrest⟩ := hway.pointer_inv hb hge
      rw [hc, some.injEq] at hc'
      rw [← hc'] at hrest
      rw [pointersOn_pointer ps hb hge] at hfew
      rw [wayBytes_cons, placeBytes_pointer hb hge, nil_append] at hne hname
      have hfew' : s.followed + 1 + pointersOn msg ps ≤ 21 := by omega
      exact ⟨ps, hrest, hfew', hne, hname⟩
    | stop ht hno =>
      rw [ht]
      constructor
      · intro h
        cases h
      rintro ⟨way, hway, hfew, -, -⟩
      have hmany := hno way hway
      omega

end

section

variable {msg : List UInt8} {lbl : Nat}

lemma turnsLeft_start (lbl : Nat) : turnsLeft msg ⟨lbl, 0, []⟩ ≤ 22 * (msg.length + 1) := by
  rw [turnsLeft]
  dsimp only
  omega

lemma decompressLabel_some_iff {name : List UInt8} (h : lbl < msg.length) : decompressLabel msg lbl =
    .ok (some name) ↔ ∃ way, Way charOffset msg lbl way ∧ pointersOn msg way ≤ 21 ∧ wayBytes msg way ≠ [] ∧ name =
    wayBytes msg way ++ [0] := by
  have hiff := @decompressLoop_some_iff msg ⟨lbl, 0, []⟩ _ name h (Nat.zero_le 21) (turnsLeft_start lbl)
  simp only [Nat.zero_add, nil_append] at hiff
  exact hiff

lemma visits_way {s : LabelState} {way : List Nat} (h : Visits (fun _ => decompressTurn msg) s t)
    (hway : Way charOffset msg s.ptr way) : ∃ ps, Way charOffset msg t.ptr ps ∧ ps ⊆ way := by
  apply @Visits.keeps _ _ _ _ s t (fun t => ∃ ps, Way charOffset msg t.ptr ps ∧ ps ⊆ way) h
    ⟨way, hway, Subset.refl way⟩
  rintro t u - ⟨ps, hps, hsub⟩ hturn
  obtain ⟨_, hturn⟩ := hturn.exists
  cases turnCase hps.inside with
  | root _ ht =>
    rw [ht] at hturn
    cases hturn
  | label b hb hpos hlt _ ht =>
    rw [ht] at hturn
    cases hturn
    obtain ⟨qs, rfl, hrest⟩ := hps.label_inv hb hpos hlt
    exact ⟨qs, hrest, fun q hq => hsub (mem_cons_of_mem _ hq)⟩
  | pointer b c hb hge hc _ _ ht =>
    rw [ht] at hturn
    cases hturn
    obtain ⟨c', qs, hc', rfl, hrest⟩ := hps.pointer_inv hb hge
    rw [hc, some.injEq] at hc'
    rw [← hc'] at hrest
    exact ⟨qs, hrest, fun q hq => hsub (mem_cons_of_mem _ hq)⟩
  | stop ht _ =>
    rw [ht] at hturn
    cases hturn

lemma Way.followed {s : LabelState} {way : List Nat} (hway : Way charOffset msg s.ptr way)
    (hfew : s.followed + pointersOn msg way ≤ 21) {q : Nat} (hq : q ∈ way) {b c : UInt8} (hb : msg[q]? = some b)
    (hge : 64 ≤ b.toNat) (hc : msg[q + 1]? = some c) : ∃ t, Visits (fun _ => decompressTurn msg) s t ∧ t.ptr = q ∧
    decompressTurn msg t = .ok (.inl ⟨charOffset b c, t.followed + 1, t.buf⟩) := by
  induction way generalizing s with
  | nil => exact absurd hq not_mem_nil
  | cons p ps ih =>
    cases turnCase hway.inside with
    | root hb' _ =>
      have hroot := hway.root_inv hb'
      rw [hroot, mem_singleton] at hq
      rw [← hq, hb, some.injEq] at hb'
      rw [hb'] at hge
      exact absurd hge (by decide)
    | label b' hb' hpos hlt _ ht =>
      obtain ⟨qs, hcons, hrest⟩ := hway.label_inv hb' hpos hlt
      rw [List.cons.injEq] at hcons
      obtain ⟨rfl, rfl⟩ := hcons
      rw [pointersOn_label ps hb' hlt] at hfew
      rcases mem_cons.mp hq with rfl | hq
      · rw [hb, some.injEq] at hb'
        rw [hb'] at hge
        omega
      obtain ⟨t, hv, hptr, hturn⟩ := @ih ⟨s.ptr + b'.toNat + 1, s.followed, _⟩ hrest hfew hq
      exact ⟨t, (visits_turn .start ht).trans hv, hptr, hturn⟩
    | pointer b' c' hb' hge' hc' _ _ ht =>
      obtain ⟨c'', qs, hc'', hcons, hrest⟩ := hway.pointer_inv hb' hge'
      rw [List.cons.injEq] at hcons
      obtain ⟨rfl, rfl⟩ := hcons
      rw [hc', some.injEq] at hc''
      rw [← hc''] at hrest
      rcases mem_cons.mp hq with rfl | hq
      · rw [hb, some.injEq] at hb'
        rw [hc, some.injEq] at hc'
        rw [← hb', ← hc'] at ht
        exact ⟨s, .start, rfl, ht⟩
      rw [pointersOn_pointer ps hb' hge'] at hfew
      have hfew' : s.followed + 1 + pointersOn msg ps ≤ 21 := by omega
      obtain ⟨t, hv, hptr, hturn⟩ := @ih ⟨charOffset b' c', s.followed + 1, s.buf⟩ hrest hfew' hq
      exact ⟨t, (visits_turn .start ht).trans hv, hptr, hturn⟩
    | stop _ hno =>
      have hmany := hno (p :: ps) hway
      omega

lemma charOffset_eq_iff {c : UInt8} (h : 192 ≤ b.toNat) :
    charOffset b c = b.toNat % 64 * 256 + c.toNat ↔ c.toNat < 128 := by
  have hc := c.toNat_lt
  have hb : charToUnsigned b = b.toNat + 4294967040 := if_neg (by omega)
  rw [charOffset, hb, charToUnsigned]
  split
  · omega
  · omega

/-- `decompress_label` ends inside of the message, and its name is the right one exactly if no pointer
on a way to the end of a name has a low byte of 128 or more. -/
theorem label_right_iff (h : lbl < msg.length) : LabelRight msg lbl ↔ LowBytesSmall msg lbl := by
  constructor
  · intro hright way hway hfew hne q hq b c hb hge hc
    have hname := (decompressLabel_some_iff h).mpr ⟨way, hway, hfew, hne, rfl⟩
    obtain ⟨t, hv, hptr, hturn⟩ := @Way.followed msg ⟨lbl, 0, []⟩ way hway (by rw [Nat.zero_add]; exact hfew)
      q hq b c hb (by omega) hc
    have hoffset := (hright.name _ hname).2 t _ b c hv hturn (by rw [hptr]; exact hb) hge
      (by rw [hptr]; exact hc)
    exact (charOffset_eq_iff hge).mp hoffset
  intro hsmall
  refine ⟨?_, ?_, ?_⟩
  · exact @decompressLoop_ends msg ⟨lbl, 0, []⟩ _ h (turnsLeft_start lbl)
  · intro t ht
    cases turnCase (visits_inside ht h) with
    | root _ ht => exact ⟨_, ht⟩
    | label _ _ _ _ _ ht => exact ⟨_, ht⟩
    | pointer _ _ _ _ _ _ _ ht => exact ⟨_, ht⟩
    | stop ht _ => exact ⟨_, ht⟩
  intro name hname
  obtain ⟨way, hway, hfew, hne, hname⟩ := (decompressLabel_some_iff h).mp hname
  have hlow := hsmall way hway hfew hne
  refine ⟨⟨way, hway.congr ?_, hname⟩, ?_⟩
  · intro q hq b c hb _ hc
    by_cases hge : 192 ≤ b.toNat
    · rw [lowBits, if_pos hge]
      exact (charOffset_eq_iff hge).mpr (hlow q hq b c hb hge hc)
    · rw [lowBits, if_neg hge]
  intro t u b c hv hturn hb hge hc
  obtain ⟨ps, hps, hsub⟩ := visits_way hv hway
  have hin := hsub hps.mem
  cases turnCase hps.inside with
  | root hb' _ =>
    rw [hb, some.injEq] at hb'
    rw [hb'] at hge
    exact absurd hge (by decide)
  | label b' hb' _ hlt _ _ =>
    rw [hb, some.injEq] at hb'
    rw [hb'] at hge
    omega
  | pointer b' c' hb' _ hc' _ _ ht =>
    rw [hb, some.injEq] at hb'
    rw [hc, some.injEq] at hc'
    rw [ht, ← hb', ← hc'] at hturn
    cases hturn
    exact (charOffset_eq_iff hge).mpr (hlow t.ptr hin b c hb hge hc)
  | stop ht _ =>
    rw [ht] at hturn
    cases hturn

end

/-- A query for `a` whose answer points back to it. -/
theorem label_right_iff_answer : LabelRight (replicate 12 0 ++ [1, 97, 0, 0, 16, 0, 1, 192, 12, 0]) 19 := by
  have hroot : Way charOffset (replicate 12 0 ++ [1, 97, 0, 0, 16, 0, 1, 192, 12, 0]) 14 [14] := .root (by decide)
  have hlabel : Way charOffset _ 12 [12, 14] := @Way.label _ _ 12 1 _ (by decide) (by decide) (by decide) hroot
  have hpointer : Way charOffset _ 19 [19, 12, 14] :=
    @Way.pointer _ _ 19 192 12 _ (by decide) (by decide) (by decide) hlabel
  refine (label_right_iff (by decide)).mpr fun way hway _ _ p hp b c hb hge hc => ?_
  rw [hway.unique hpointer, mem_cons, mem_pair] at hp
  rcases hp with rfl | rfl | rfl
  · cases hc
    decide
  · cases hb
    exact absurd hge (by decide)
  cases hb
  exact absurd hge (by decide)

def lateName : List UInt8 :=
  [193, 128] ++ replicate 126 0 ++ [1, 97, 0] ++ replicate 253 0 ++ [1, 98, 0]

/-- The pointer to 384 is followed to 128, so `a` is returned for the name `b`. -/
theorem lateName_wrong : decompressLabel lateName 0 = .ok (some [1, 97, 0]) ∧
    (Way lowBits lateName 0 [0, 384, 386] ∧ wayBytes lateName [0, 384, 386] = [1, 98]) ∧
    ¬LabelRight lateName 0 := by
  have hname : decompressLabel lateName 0 = .ok (some [1, 97, 0]) := by decide +kernel
  refine ⟨hname, ⟨?_, by decide +kernel⟩, ?_⟩
  · have hroot : Way lowBits lateName 386 [386] := .root (by decide +kernel)
    have hlabel : Way lowBits lateName 384 [384, 386] :=
      @Way.label _ _ 384 1 _ (by decide +kernel) (by decide) (by decide) hroot
    exact @Way.pointer _ _ 0 193 128 _ (by decide +kernel) (by decide) (by decide +kernel) hlabel
  intro h
  have hturn : decompressTurn lateName ⟨0, 0, []⟩ = .ok (.inl ⟨128, 1, []⟩) := by decide +kernel
  have hoffset := (h.name _ hname).2 ⟨0, 0, []⟩ _ 193 128 .start hturn (by decide +kernel) (by decide)
    (by decide +kernel)
  exact absurd hoffset (by decide)

end Vde
