import Mathlib.Data.List.Forall2
import Vde.Proofs.OlsrBuilders
import Vde.Proofs.OlsrRecv

/-!
# A datagram of OLSR at another router

The reader finds each message behind the one before it, by the sizes in the headers, and in each message the records
one after the other. So the loops over the bytes are loops over the lists that were written.
-/

namespace Vde

open List

section Records

structure Advert where
  addr : BitVec 32
  lq : UInt8
  nlq : UInt8

def OlsrEntry.advert (e : OlsrEntry) : Advert := ⟨e.destination, e.lq, e.nlq⟩

/-- A turn of a loop over a list. The loop is left early if `body` says so. -/
def eachRecord {α : Type} (body : Nat → α → Olsr → Except OlsrFault (Bool × Olsr)) (n : Nat) :
    List α × Olsr → Except OlsrFault ((List α × Olsr) ⊕ Olsr)
  | ([], s) => .ok (.inr s)
  | (a :: rest, s) => do
    let (goesOn, s) ← body n a s
    pure (if goesOn then .inl (rest, s) else .inr s)

variable (alloc : Nat → Bool) (origin : Nat)

def helloRecord (n : Nat) (a : Advert) (s : Olsr) : Except OlsrFault (Bool × Olsr) := do
  match ← getRouteByAddress s.entries a.addr n s.localInterfaces with
  | none =>
    match s.malloc alloc with
    | (none, s) => pure (false, s)
    | (some e, s) =>
      let eo ← s.entries.read origin
      let s ← s.modify e (fun _ =>
        { timeLeft := OLSR_MSG_INTERVAL * 4, destination := a.addr, gateway := some origin
          iface := eo.iface, metric := eo.metric + 1, linkType := OLSRLINK_UNKNOWN
          lq := min eo.lq a.lq, nlq := min eo.nlq a.nlq })
      let s ← olsrRouteAdd alloc n e s
      pure (true, arpStorm a.addr s)
  | some e =>
    let ee ← s.entries.read e
    let eo ← s.entries.read origin
    if ee.gateway ≠ some origin ∧ ee.metric.toNat > eo.metric.toNat + 1 then
      let s ← olsrRouteDel n e s
      let eo ← s.entries.read origin
      let s ← s.modify e (fun x => { x with metric := eo.metric + 1, gateway := some origin })
      let s ← olsrRouteAdd alloc n e s
      pure (true, s)
    else pure (true, s)

def midRecord (n : Nat) (address : BitVec 32) (s : Olsr) : Except OlsrFault (Bool × Olsr) := do
  match ← getRouteByAddress s.entries address n s.localInterfaces with
  | none =>
    match s.malloc alloc with
    | (none, s) => pure (false, s)
    | (some e, s) =>
      let eo ← s.entries.read origin
      let s ← s.modify e (fun _ =>
        { timeLeft := OLSR_MSG_INTERVAL * 4, destination := address, gateway := some origin
          iface := eo.iface, metric := eo.metric + 1, lq := eo.lq, nlq := eo.nlq })
      let s ← olsrRouteAdd alloc n e s
      pure (true, arpStorm address s)
  | some e =>
    let ee ← s.entries.read e
    let eo ← s.entries.read origin
    if ee.metric.toNat > eo.metric.toNat + 1 then
      let s ← olsrRouteDel n e s
      let eo ← s.entries.read origin
      let s ← s.modify e (fun x => { x with metric := eo.metric, gateway := some origin })
      let s ← olsrRouteAdd alloc n e s
      pure (true, s)
    else pure (true, s)

def placeAdvert (n : Nat) (a : Advert) (rt : Nat) (s : Olsr) : Except OlsrFault Olsr := do
  let eo ← s.entries.read origin
  let s ← s.modify rt (fun x => x.placedUnder origin eo a.lq a.nlq)
  olsrRouteAdd alloc n rt s

/-- What `reconsider_topology` does with a neighbour of the originator. -/
def tcRecord (n : Nat) (a : Advert) (s : Olsr) : Except OlsrFault (Bool × Olsr) := do
  match ← getRouteByAddress s.entries a.addr n s.localInterfaces with
  | none =>
    match s.malloc alloc with
    | (none, _) => .error .badPointer
    | (some rt, s) =>
      let s ← s.modify rt (fun x => { x with destination := a.addr })
      let s ← placeAdvert alloc origin n a rt s
      pure (true, s)
  | some rt =>
    let x ← s.entries.read rt
    let eo ← s.entries.read origin
    if x.gateway = some origin then
      let s ← s.modify rt (fun x => { x with timeLeft := eo.timeLeft })
      pure (true, s)
    else if x.metric.toNat > eo.metric.toNat + 1 ∨ x.nlq < a.nlq then
      let s ← olsrRouteDel n rt s
      let s ← placeAdvert alloc origin n a rt s
      pure (true, s)
    else pure (true, s)

variable {alloc origin} {d : Dgram} {base parsed n : Nat} {len : Int} {e : OlsrEntry} {s : Olsr}

def nextRecord (parsed width : Nat) (x : Bool × Olsr) : (Nat × Olsr) ⊕ Olsr :=
  if x.1 then .inl (parsed + width, x.2) else .inr x.2

lemma helloTurn_eq (hlt : parsed < len) (hsize : load16 d.mem (base + 2) = ntohs 12)
    (hinside : base + 4 ≤ d.len ∧ base + parsed + 12 ≤ d.len)
    (hholds : HoldsBytes d.mem (base + parsed) (linkBytes e)) : helloTurn alloc d base len origin n (parsed, s) =
    helloRecord alloc origin n e.advert s >>= fun x => .ok (nextRecord parsed 12 x) := by
  obtain ⟨hbase, hinside⟩ := hinside
  have hlist : HoldsBytes d.mem (base + parsed + 4) (neighborBytes e) := by
    have hlink := (holdsBytes_append.mp (holdsBytes_append.mp (holdsBytes_append.mp hholds).2).2).2
    exact hlink
  obtain ⟨haddr, hlinks⟩ := holdsBytes_append.mp hlist
  have hget16 : d.get16 (base + 2) = .ok (ntohs 12) := get16_iff.mpr ⟨by omega, hsize.symm⟩
  have hget32 : d.get32 (base + parsed + 4) = .ok e.destination := get32_iff.mpr ⟨by omega, haddr.load32.symm⟩
  have hlq : d.get8 (base + parsed + 8) = .ok e.lq :=
    get8_iff.mpr ⟨by omega, (hlinks.byte (i := 0) (by simp)).symm⟩
  have hnlq : d.get8 (base + parsed + 9) = .ok e.nlq :=
    get8_iff.mpr ⟨by omega, (hlinks.byte (i := 1) (by simp)).symm⟩
  have htwelve : (ntohs (ntohs 12)).toNat = 12 := by decide
  rw [helloTurn, if_neg (not_le.mpr hlt), hget16, ok_bind, hget32, ok_bind, helloRecord, bind_assoc]
  dsimp only [OlsrEntry.advert]
  rw [htwelve]
  congr 1
  funext res
  cases res with
  | none =>
    dsimp only
    cases s.malloc alloc with
    | mk p s =>
      cases p with
      | none => rfl
      | some p => simp only [hlq, hnlq, ok_bind, bind_assoc, nextRecord, pure_eq_ok, if_pos]
  | some p =>
    simp only [bind_assoc]
    congr 1
    funext ee
    congr 1
    funext eo
    split
    · simp only [bind_assoc, nextRecord, pure_eq_ok, ok_bind, if_pos]
    · rfl

lemma midTurn_eq (hlt : parsed < len) (hinside : base + parsed + 4 ≤ d.len)
    (hholds : HoldsBytes d.mem (base + parsed) (addressBytes e)) : midTurn alloc d base len origin n (parsed, s) =
    midRecord alloc origin n e.destination s >>= fun x => .ok (nextRecord parsed 4 x) := by
  have hget32 : d.get32 (base + parsed) = .ok e.destination := get32_iff.mpr ⟨hinside, hholds.load32.symm⟩
  rw [midTurn, if_neg (not_le.mpr hlt), hget32, ok_bind, midRecord, bind_assoc]
  congr 1
  funext res
  cases res with
  | none =>
    dsimp only
    cases s.malloc alloc with
    | mk p s =>
      cases p with
      | none => rfl
      | some p => simp only [bind_assoc, nextRecord, pure_eq_ok, ok_bind, if_pos]
  | some p =>
    simp only [bind_assoc]
    congr 1
    funext ee
    congr 1
    funext eo
    split
    · simp only [bind_assoc, nextRecord, pure_eq_ok, ok_bind, if_pos]
    · rfl

lemma placeUnder_advert {off rt : Nat} {a : Advert} (hlq : d.get8 (off + 4) = .ok a.lq)
    (hnlq : d.get8 (off + 5) = .ok a.nlq) :
    placeUnder alloc d n off origin rt s = placeAdvert alloc origin n a rt s := by
  simp only [placeUnder, hlq, hnlq, ok_bind]
  rfl

lemma tcMoves_advert {off : Nat} {eo x : OlsrEntry} {a : Advert} (hnlq : d.get8 (off + 5) = .ok a.nlq) :
    tcMoves d off eo x = .ok (decide (x.metric.toNat > eo.metric.toNat + 1 ∨ x.nlq < a.nlq)) := by
  rw [tcMoves, hnlq, ok_bind]
  by_cases hm : x.metric.toNat > eo.metric.toNat + 1
  · rw [if_pos hm, decide_eq_true (.inl hm)]
  rw [if_neg hm]
  simp only [hm, false_or]
  rfl

lemma tcTurn_eq (hlt : parsed < len) (hinside : base + parsed + 8 ≤ d.len)
    (hholds : HoldsBytes d.mem (base + parsed) (neighborBytes e)) : tcTurn alloc d base len origin n (parsed, s) =
    tcRecord alloc origin n e.advert s >>= fun x => .ok (nextRecord parsed 8 x) := by
  obtain ⟨haddr, hlinks⟩ := holdsBytes_append.mp hholds
  have hget32 : d.get32 (base + parsed) = .ok e.advert.addr := get32_iff.mpr ⟨by omega, haddr.load32.symm⟩
  have hlq : d.get8 (base + parsed + 4) = .ok e.advert.lq :=
    get8_iff.mpr ⟨by omega, (hlinks.byte (i := 0) (by simp)).symm⟩
  have hnlq : d.get8 (base + parsed + 5) = .ok e.advert.nlq :=
    get8_iff.mpr ⟨by omega, (hlinks.byte (i := 1) (by simp)).symm⟩
  rw [tcTurn, if_neg (not_le.mpr hlt), hget32, ok_bind, tcRecord, bind_assoc]
  congr 1
  funext res
  cases res with
  | none =>
    dsimp only
    cases s.malloc alloc with
    | mk p s =>
      cases p with
      | none => rfl
      | some p =>
        simp only [placeUnder_advert hlq hnlq, bind_assoc, nextRecord, pure_eq_ok, ok_bind, if_pos]
  | some p =>
    simp only [bind_assoc]
    congr 1
    funext x
    congr 1
    funext eo
    split
    · simp only [bind_assoc, nextRecord, pure_eq_ok, ok_bind, if_pos]
    rw [tcMoves_advert hnlq, ok_bind]
    simp only [decide_eq_true_eq]
    by_cases hmoves : x.metric.toNat > eo.metric.toNat + 1 ∨ x.nlq < e.advert.nlq
    · rw [if_pos hmoves, if_pos hmoves]
      simp only [placeUnder_advert hlq hnlq, bind_assoc, nextRecord, pure_eq_ok, ok_bind, if_pos]
    rw [if_neg hmoves, if_neg hmoves]
    rfl

end Records

section Loops

variable {α : Type} {turn : Nat → Nat × Olsr → Except OlsrFault ((Nat × Olsr) ⊕ Olsr)}
  {body : Nat → α → Olsr → Except OlsrFault (Bool × Olsr)} {tells : OlsrEntry → α} {bytes : OlsrEntry → List UInt8}
  {d : Dgram} {base width parsed : Nat} {len : Int} {es : List OlsrEntry}

lemma runLoop_records (hwidth : ∀ e, (bytes e).length = width)
    (hstop : ∀ n (p : Nat) s, len ≤ p → turn n (p, s) = .ok (.inr s))
    (hturn : ∀ n (p : Nat) e s, parsed ≤ p → (p : Int) < len → base + p + width ≤ d.len →
      HoldsBytes d.mem (base + p) (bytes e) →
      turn n (p, s) = body n (tells e) s >>= fun x => .ok (nextRecord p width x))
    (hlen : len = ((parsed + width * es.length : Nat) : Int)) (hinside : base + parsed + width * es.length ≤ d.len)
    (hpos : 0 < width) (hholds : HoldsBytes d.mem (base + parsed) (es.flatMap bytes)) (n : Nat) (s : Olsr) :
    runLoop .hang turn n (parsed, s) = runLoop .hang (eachRecord body) n (es.map tells, s) := by
  -- the turns of both begin with the same records left
  let R (t : Nat × Olsr) (u : List α × Olsr) : Prop :=
    t.2 = u.2 ∧ parsed ≤ t.1 ∧ ∃ es : List OlsrEntry, u.1 = es.map tells ∧
      len = ((t.1 + width * es.length : Nat) : Int) ∧ base + t.1 + width * es.length ≤ d.len ∧
      HoldsBytes d.mem (base + t.1) (es.flatMap bytes)
  refine @runLoop_same _ _ _ _ OlsrFault.hang turn (eachRecord body) R ?_ n (parsed, s) (es.map tells, s)
    ⟨rfl, le_rfl, es, rfl, hlen, hinside, hholds⟩
  rintro n ⟨p, s⟩ ⟨as, s'⟩ ⟨hs, hp, es, has, hlen, hinside, hholds⟩
  dsimp only at hs hp has hlen hinside hholds
  subst hs has
  cases es with
  | nil =>
    rw [hstop n p s (by rw [hlen, length_nil, Nat.mul_zero, Nat.add_zero])]
    exact .inr s
  | cons e rest =>
    rw [length_cons, Nat.mul_succ] at hlen hinside
    rw [flatMap_cons, holdsBytes_append, hwidth] at hholds
    rw [hturn n p e s hp (by omega) (by omega) hholds.1, map_cons, eachRecord]
    cases body n (tells e) s with
    | error f => exact .error f
    | ok x =>
      obtain ⟨goesOn, s₁⟩ := x
      cases goesOn with
      | false => exact .inr s₁
      | true =>
        refine .inl ⟨rfl, ?_, rest, rfl, ?_, ?_, ?_⟩
        · dsimp only
          omega
        · rw [hlen]
          dsimp only
          omega
        · dsimp only
          omega
        · rw [← Nat.add_assoc]
          exact hholds.2

end Loops

section Messages

/-- The handler of a message goes through the list that the message tells. -/
def SeesBody (alloc : Nat → Bool) (r : OlsrRecv) : OlsrBody → Prop
  | .hello neighbors => ∀ n origin s,
      recvHello alloc r.dgram (r.parsed + 16) n ((r.size : Int) - 16) (some origin) s =
        runLoop .hang (eachRecord (helloRecord alloc origin)) n (neighbors.map OlsrEntry.advert, s)
  | .mid locals => ∀ n origin s,
      recvMid alloc r.dgram (r.parsed + 12) n ((r.size : Int) - 12) origin s =
        runLoop .hang (eachRecord (midRecord alloc origin)) n (locals.map OlsrEntry.destination, s)
  | .tc ansn neighbors => ntohs (load16 r.dgram.mem (r.parsed + 12)) = ansn ∧ ∀ n origin s,
      reconsiderTopology alloc r.dgram (r.parsed + 12) n ((r.size : Int) - 12) origin s =
        advertise alloc r.dgram (r.parsed + 12) ((r.size : Int) - 12) origin s >>= fun x =>
          if x.2 then
            runLoop .hang (eachRecord (tcRecord alloc origin)) n (neighbors.map OlsrEntry.advert, x.1) >>= fun s =>
              .ok (s, true)
          else .ok x

/-- The turn of the message loop begins at a message, which lies in the datagram and fits behind those to be
forwarded. -/
structure Sees (alloc : Nat → Bool) (m : OlsrMsg) (r : OlsrRecv) : Prop where
  type : r.dgram.mem r.parsed = m.body.type
  orig : r.orig = m.orig
  size : r.size = m.body.size
  inside : r.parsed + r.size ≤ r.dgram.len
  room : r.outsize + r.size ≤ DGRAM_MAX_SIZE
  body : SeesBody alloc r m.body

/-- The message loop comes to the messages one after the other, and then to the end of the datagram. -/
def InTurn (alloc : Nat → Bool) : List OlsrMsg → OlsrRecv → Prop
  | [], r => r.parsed = r.dgram.len
  | m :: ms, r => Sees alloc m r ∧ ∀ n x, msgTurn alloc n r = .ok x → ∃ r', x = .inl r' ∧ InTurn alloc ms r'

variable {alloc : Nat → Bool} {r r' : OlsrRecv} {m : OlsrMsg} {origin n : Nat}

lemma knownType_body (h : r.dgram.mem r.parsed = m.body.type) : KnownType r := by
  rw [KnownType, h]
  cases m.body with
  | hello neighbors => exact .inl rfl
  | mid locals => exact .inr (.inl rfl)
  | tc ansn neighbors => exact .inr (.inr rfl)

lemma hello_sees {neighbors : List OlsrEntry} (hsize : r.size = OlsrBody.size (.hello neighbors))
    (hinside : r.parsed + r.size ≤ r.dgram.len) (h : CarriesBody r.dgram.mem r.parsed (.hello neighbors)) :
    SeesBody alloc r (.hello neighbors) := by
  intro n origin s
  have hlen : ((r.size : Int) - 16) = ((0 + 12 * neighbors.length : Nat) : Int) := by
    rw [hsize, OlsrBody.size]
    omega
  rw [OlsrBody.size] at hsize
  rw [recvHello, hlen]
  refine @runLoop_records Advert _ (helloRecord alloc origin) OlsrEntry.advert linkBytes r.dgram (r.parsed + 16) 12 0 _
    neighbors linkBytes_length (fun n p s hp => if_pos hp) ?_ rfl (by omega) (by decide) h n s
  intro n p e s hp hlt hrecord hholds
  -- the loop reads the size of each link from the first one
  have hfirst : load16 r.dgram.mem (r.parsed + 16 + 2) = ntohs 12 := by
    cases neighbors with
    | nil =>
      rw [length_nil] at hlt
      omega
    | cons e₀ rest =>
      have hlink : HoldsBytes r.dgram.mem (r.parsed + 16) (linkBytes e₀ ++ rest.flatMap linkBytes) := h
      have hsizeField := (holdsBytes_append.mp (holdsBytes_append.mp (holdsBytes_append.mp
        (holdsBytes_append.mp hlink).1).2).2).1
      exact hsizeField.load16
  exact helloTurn_eq hlt hfirst ⟨by omega, hrecord⟩ hholds

lemma mid_sees {locals : List OlsrEntry} (hsize : r.size = OlsrBody.size (.mid locals))
    (hinside : r.parsed + r.size ≤ r.dgram.len) (h : CarriesBody r.dgram.mem r.parsed (.mid locals)) :
    SeesBody alloc r (.mid locals) := by
  intro n origin s
  have hlen : ((r.size : Int) - 12) = ((0 + 4 * locals.length : Nat) : Int) := by
    rw [hsize, OlsrBody.size]
    omega
  rw [OlsrBody.size] at hsize
  have hwhole : ¬((0 + 4 * locals.length : Nat) : Int) % 4 ≠ 0 := by omega
  rw [recvMid, hlen, if_neg hwhole]
  exact @runLoop_records (BitVec 32) _ (midRecord alloc origin) OlsrEntry.destination addressBytes r.dgram
    (r.parsed + 12) 4 0 _ locals addressBytes_length (fun n p s hp => if_pos hp)
    (fun n p e s hp hlt hrecord hholds => midTurn_eq hlt hrecord hholds) rfl (by omega) (by decide) h n s

lemma tc_sees {ansn : BitVec 16} {neighbors : List OlsrEntry} (hsize : r.size = OlsrBody.size (.tc ansn neighbors))
    (hinside : r.parsed + r.size ≤ r.dgram.len) (h : CarriesBody r.dgram.mem r.parsed (.tc ansn neighbors)) :
    SeesBody alloc r (.tc ansn neighbors) := by
  obtain ⟨hansn, hlist⟩ := h
  refine ⟨by rw [hansn, ntohs_ntohs], ?_⟩
  intro n origin s
  have hlen : ((r.size : Int) - 12) = ((4 + 8 * neighbors.length : Nat) : Int) := by
    rw [hsize, OlsrBody.size]
    omega
  rw [OlsrBody.size] at hsize
  rw [reconsiderTopology, hlen]
  congr 1
  funext x
  obtain ⟨s, b⟩ := x
  cases b with
  | false => rfl
  | true =>
    have hloop := @runLoop_records Advert (tcTurn alloc r.dgram (r.parsed + 12) (4 + 8 * neighbors.length : Nat) origin)
      (tcRecord alloc origin) OlsrEntry.advert neighborBytes r.dgram (r.parsed + 12) 8 4 _ neighbors
      neighborBytes_length (fun n p s hp => if_pos hp)
      (fun n p e s hp hlt hrecord hholds => tcTurn_eq hlt hrecord hholds) rfl (by omega) (by decide) hlist n s
    dsimp only
    rw [hloop, if_pos rfl]
    rfl

lemma CarriesMsg.sees (h : CarriesMsg r.dgram.mem r.parsed m) (hinside : r.parsed + m.body.size ≤ r.dgram.len)
    (hlen : r.dgram.len ≤ DGRAM_MAX_SIZE) (hout : r.outsize ≤ r.parsed) : Sees alloc m r := by
  have hbig : DGRAM_MAX_SIZE = 1800 := rfl
  have hsize : r.size = m.body.size := by
    rw [OlsrRecv.size, h.size, ntohs_ntohs, BitVec.toNat_ofNat]
    exact Nat.mod_eq_of_lt (by omega)
  rw [← hsize] at hinside
  refine ⟨h.type, h.orig, hsize, hinside, by omega, ?_⟩
  obtain ⟨orig, body⟩ := m
  cases body with
  | hello neighbors => exact hello_sees hsize hinside h.body
  | mid locals => exact mid_sees hsize hinside h.body
  | tc ansn neighbors => exact tc_sees hsize hinside h.body

structure GoesOn (r r' : OlsrRecv) : Prop where
  parsed : r'.parsed = r.parsed + r.size
  len : r'.dgram.len = r.dgram.len
  mem : ∀ i, r.parsed + 10 ≤ i → r'.dgram.mem i = r.dgram.mem i
  out : r'.outsize ≤ r.outsize + r.size

lemma copyMsg_out {copied : Bool} (h : copyMsg copied r = .ok r') : r'.outsize ≤ r.outsize + r.size := by
  obtain ⟨size, hsize, h⟩ := bind_eq_ok.mp h
  obtain ⟨-, rfl⟩ := msgSize_iff.mp hsize
  split at h
  · obtain ⟨msg, hmsg, h⟩ := bind_eq_ok.mp h
    obtain ⟨-, rfl⟩ := getBytes_iff.mp hmsg
    split at h
    · cases h
      rw [OlsrRecv.outsize, OlsrRecv.outsize, length_append, readBytes_length, Nat.add_assoc]
    · cases h
  cases h
  exact Nat.le_add_right _ _

lemma olsrForward_goesOn (h : olsrForward r = .ok r') : GoesOn r r' := by
  obtain ⟨-, hparsed, hlen, -⟩ := olsrForward_frame h
  refine ⟨hparsed, hlen, ?_, ?_⟩
  · intro i hi
    obtain ⟨ttl, -, h⟩ := bind_eq_ok.mp h
    obtain ⟨d, hd, h⟩ := bind_eq_ok.mp h
    obtain ⟨-, rfl⟩ := set8_iff.mp hd
    rw [(copyMsg_frame h).2.2]
    exact store8_outside _ _ (by omega)
  obtain ⟨-, r₁, hmsg, -, h⟩ := olsrForward_ok h
  have hsame : r₁.outsize = r.outsize := by rw [OlsrRecv.outsize, OlsrRecv.outsize, hmsg.outmsg]
  have hout := copyMsg_out h
  rwa [hmsg.size, hsame] at hout

lemma msgTurn_goesOn {x : OlsrRecv ⊕ (OlsrRecv × Bool)} (hlt : r.parsed < r.dgram.len) (htype : KnownType r)
    (hn : msgTurn alloc n r = .ok x) : ∃ r', x = .inl r' ∧ GoesOn r r' := by
  obtain ⟨-, ⟨-, rfl⟩ | ⟨origin, r₁, y, -, hheard, hhandle, hend⟩⟩ := msgTurn_cases hlt hn
  · exact ⟨_, rfl, rfl, rfl, fun _ _ => rfl, Nat.le_add_right _ _⟩
  have hfirst := heardFrom_same hheard
  obtain ⟨hknown, hsame⟩ := olsrHandle_frame hhandle
  have hne : y ≠ none := hknown.mp (hfirst.knownType.mpr htype)
  rcases hend with ⟨hnone, -⟩ | ⟨r₂, r₃, rfl, hforward, rfl⟩
  · exact absurd hnone hne
  have hsecond := hsame r₂ rfl
  obtain ⟨hparsed, hlen, hmem, hout⟩ := olsrForward_goesOn hforward
  have hsize : r₂.size = r.size := hsecond.size.trans hfirst.size
  have hparsed₂ : r₂.parsed = r.parsed := hsecond.parsed.trans hfirst.parsed
  refine ⟨r₃, rfl, ?_, ?_, ?_, ?_⟩
  · rw [hparsed, hsize, hparsed₂]
  · rw [hlen, hsecond.len, hfirst.len]
  · intro i hi
    have hbehind := (olsrHandle_cases hhandle).behind (i := i) (by rw [hfirst.parsed]; exact hi)
    rw [hmem i (by rw [hparsed₂]; exact hi), hbehind, heardFrom_dgram hheard]
  · have hout₂ : r₂.outsize = r.outsize := by
      rw [OlsrRecv.outsize, OlsrRecv.outsize, hsecond.outmsg, hfirst.outmsg]
    rwa [hsize, hout₂] at hout

lemma TilesFrom.inTurn {ms : List OlsrMsg} (h : TilesFrom r.dgram.mem r.dgram.len r.parsed ms)
    (hlen : r.dgram.len ≤ DGRAM_MAX_SIZE) (hout : r.outsize ≤ r.parsed) : InTurn alloc ms r := by
  induction ms generalizing r with
  | nil => exact h
  | cons m ms ih =>
    obtain ⟨hm, hms⟩ := h
    obtain ⟨hle, -⟩ := hms.congr (fun _ _ _ => rfl)
    have hsees : Sees alloc m r := hm.sees hle hlen hout
    have hmin := m.body.size_ge
    refine ⟨hsees, fun n x hn => ?_⟩
    obtain ⟨r', rfl, hparsed, hlen', hmem, hout'⟩ := msgTurn_goesOn (by omega) (knownType_body hm.type) hn
    rw [hsees.size] at hparsed hout'
    refine ⟨r', rfl, ih ?_ (by omega) (by omega)⟩
    rw [hlen', hparsed]
    exact (hms.congr (fun i hi _ => hmem i (by omega))).2

end Messages

section Walks

variable {h : OlsrHeap}

lemma olsrSiblings_ends {start : Option Nat} {l : List Nat} (hl : Siblings h start l) :
    ∃ es, Ends (fun n => olsrSiblings h n start) es ∧ Forall₂ (fun p e => h p = some e) l es := by
  induction l generalizing start with
  | nil =>
    cases hl
    exact ⟨[], ends_succ_iff.mp (ends_of_forall (fun _ => rfl)), .nil⟩
  | cons p l ih =>
    obtain ⟨rfl, e, he, hrest⟩ := hl
    obtain ⟨es, hes, hentries⟩ := ih hrest
    refine ⟨e :: es, ends_succ_iff.mp ?_, .cons he hentries⟩
    filter_upwards [hes] with n hn
    rw [olsrSiblings, read_eq he, ok_bind, hn]
    rfl

lemma olsrNeighbors_ends {kids : Nat → List Nat} {l : List Nat} {locals : List OlsrEntry}
    (hlocals : Forall₂ (fun p e => h p = some e) l locals)
    (hkids : ∀ p ∈ l, ∃ e, h p = some e ∧ Siblings h e.children (kids p)) : ∃ neighbors,
    Ends (fun n => olsrNeighbors h n locals) neighbors ∧
    Forall₂ (fun p e => h p = some e) (l.flatMap kids) neighbors := by
  induction hlocals with
  | nil => exact ⟨[], ends_of_forall (fun _ => rfl), .nil⟩
  | @cons p e l locals he hrest ih =>
    obtain ⟨e', he', hchildren⟩ := hkids p mem_cons_self
    cases he.symm.trans he'
    obtain ⟨children, hfirst, hentries⟩ := olsrSiblings_ends hchildren
    obtain ⟨neighbors, hsecond, hothers⟩ := ih (fun q hq => hkids q (mem_cons_of_mem p hq))
    refine ⟨children ++ neighbors, ?_, ?_⟩
    · filter_upwards [hfirst, hsecond] with n hn hn'
      rw [olsrNeighbors, hn, ok_bind, hn']
      rfl
    rw [flatMap_cons]
    exact rel_append hentries hothers

structure OlsrWalks (s : Olsr) (locals neighbors : List OlsrEntry) : Prop where
  roots : Ends (fun n => olsrSiblings s.entries n s.localInterfaces) locals
  children : Ends (fun n => olsrNeighbors s.entries n locals) neighbors

lemma TreeShape.walks {s : Olsr} {kids : Option Nat → List Nat} {depth : Nat → Nat} {bound : Nat}
    (T : TreeShape s kids depth bound) : ∃ locals neighbors, OlsrWalks s locals neighbors ∧
    Forall₂ (fun p e => s.entries p = some e) (kids none) locals ∧
    Forall₂ (fun p e => s.entries p = some e) ((kids none).flatMap (fun p => kids (some p))) neighbors := by
  obtain ⟨locals, hlocals, hentries⟩ := olsrSiblings_ends T.roots
  have hkids (p : Nat) (hp : p ∈ kids none) : ∃ e, s.entries p = some e ∧ Siblings s.entries e.children (kids (some p)) := by
    obtain ⟨e, he, -, hchildren⟩ := T.child none p hp
    exact ⟨e, he, hchildren⟩
  obtain ⟨neighbors, hneighbors, hothers⟩ := @olsrNeighbors_ends _ (fun p => kids (some p)) _ _ hentries hkids
  exact ⟨locals, neighbors, ⟨hlocals, hneighbors⟩, hentries, hothers⟩

end Walks

section Dgrams

/-- The call sends a datagram that the messages fill, and the message loop of any router that receives it comes to
them in turn. -/
def Advertises (stack : Mem) (vif : Nat) (c : OlsrCounters) (s : Olsr) (msgs : List OlsrMsg) : Prop :=
  ∃ c' s' bytes, Ends (fun n => olsrMakeDgram stack vif n c s) (c', s') ∧ s'.sent = s.sent ++ [(vif, bytes)] ∧
    bytes.length ≤ DGRAM_MAX_SIZE ∧
    ∀ d : Dgram, d.len = bytes.length → HoldsBytes d.mem 0 bytes →
      d.len = (ntohs (load16 d.mem 0)).toNat ∧ TilesFrom d.mem d.len 4 msgs ∧
        ∀ alloc s, InTurn alloc msgs (recvStart d s)

variable {stack : Mem} {vif n : Nat} {c : OlsrCounters} {s : Olsr} {ep : Ip4Address} {rest : List Ip4Address}
  {locals neighbors : List OlsrEntry}

lemma makeDgram_eq (hvif : s.router.addressList vif = ep :: rest) (hw : OlsrWalks s locals neighbors) :
    ∀ᶠ n in Filter.atTop, olsrMakeDgram stack vif n c s =
      (makeMessages ep.address vif c s.myAnsn s.pktCounter locals neighbors ⟨stack, DGRAM_MAX_SIZE⟩ >>= fun x =>
        .ok (⟨c.hello + 1, c.mid + 1, c.tc + 1⟩,
          { s with pktCounter := s.pktCounter + 1, sent := s.sent ++ [(vif, readBytes x.2.mem 0 x.1)] })) := by
  filter_upwards [hw.roots, hw.children] with n hlocals hneighbors
  rw [olsrMakeDgram, hvif]
  dsimp only
  rw [hlocals, ok_bind, hneighbors, ok_bind]
  rfl

lemma makeDgram_outside (hvif : s.router.addressList vif = ep :: rest) (hw : OlsrWalks s locals neighbors)
    (hbad : ¬DgramFits neighbors.length (otherLocals vif locals).length) :
    ∀ᶠ n in Filter.atTop, olsrMakeDgram stack vif n c s = .error .writeOutside := by
  have hmake := @makeMessages_outside ⟨stack, DGRAM_MAX_SIZE⟩ ep.address c neighbors locals vif s.myAnsn s.pktCounter
    rfl hbad
  filter_upwards [@makeDgram_eq stack vif c s ep rest locals neighbors hvif hw] with n hn
  rw [hn, hmake]
  rfl

section

variable (hvif : s.router.addressList vif = ep :: rest) (hw : OlsrWalks s locals neighbors)

include hvif hw

lemma not_advertises (hbad : ¬DgramFits neighbors.length (otherLocals vif locals).length) (msgs : List OlsrMsg) :
    ¬Advertises stack vif c s msgs := by
  rintro ⟨c', s', bytes, hends, -⟩
  obtain ⟨n, hok, herror⟩ := (hends.and (@makeDgram_outside stack vif c s ep rest locals neighbors hvif hw hbad)).exists
  cases herror.symm.trans hok

lemma advertises
    (hfits : DgramFits neighbors.length (otherLocals vif locals).length) :
    Advertises stack vif c s (advertised ep.address s.myAnsn vif locals neighbors
      (tcCount neighbors.length (otherLocals vif locals).length)) := by
  obtain ⟨size, d₀, hmake, h4, hsize, hlenField, htiles⟩ :=
    @makeMessages_ok ⟨stack, DGRAM_MAX_SIZE⟩ ep.address c neighbors locals vif s.myAnsn s.pktCounter rfl hfits
  generalize advertised ep.address s.myAnsn vif locals neighbors
    (tcCount neighbors.length (otherLocals vif locals).length) = msgs at htiles ⊢
  have hbig : DGRAM_MAX_SIZE = 1800 := rfl
  have hbytes : (readBytes d₀.mem 0 size).length = size := readBytes_length _ _ _
  refine ⟨⟨c.hello + 1, c.mid + 1, c.tc + 1⟩,
    { s with pktCounter := s.pktCounter + 1, sent := s.sent ++ [(vif, readBytes d₀.mem 0 size)] },
    readBytes d₀.mem 0 size, ?_, rfl, hbytes.trans_le hsize, ?_⟩
  · filter_upwards [@makeDgram_eq stack vif c s ep rest locals neighbors hvif hw] with n hn
    rw [hn, hmake]
    rfl
  intro d hlen hholds
  rw [hbytes] at hlen
  have hsame (i : Nat) (hi : i < size) : d.mem i = d₀.mem i := by
    have hbyte := hholds.byte (i := i) (by rwa [hbytes])
    rw [readBytes_getElem, Nat.zero_add] at hbyte
    exact hbyte
  have hfield : load16 d.mem 0 = load16 d₀.mem 0 := load16_congr (fun i hi => hsame (0 + i) (by omega))
  have htilesHere : TilesFrom d.mem d.len 4 msgs := by
    rw [hlen]
    exact (htiles.congr (fun i _ hi => hsame i hi)).2
  refine ⟨?_, htilesHere, fun alloc s => htilesHere.inTurn (by rw [recvStart, hlen]; exact hsize) le_rfl⟩
  rw [hfield, hlenField, ntohs_ntohs, BitVec.toNat_ofNat, hlen]
  exact (Nat.mod_eq_of_lt (by omega)).symm

end

/-- The datagram is built inside of its array, and read as it was meant, exactly if its messages fit. -/
theorem dgram_seen_iff (stack : Mem) (t : OlsrTree) (vif : Nat) (c : OlsrCounters) {ep : Ip4Address}
    {rest : List Ip4Address} (hvif : t.olsr.router.addressList vif = ep :: rest) :
    ∃ locals neighbors, OlsrWalks t.olsr locals neighbors ∧
      (Advertises stack vif c t.olsr (advertised ep.address t.olsr.myAnsn vif locals neighbors
          (tcCount neighbors.length (otherLocals vif locals).length)) ↔
        DgramFits neighbors.length (otherLocals vif locals).length) := by
  obtain ⟨kids, depth, bound, T⟩ := t.isTree
  obtain ⟨locals, neighbors, hw, -, -⟩ := T.walks
  refine ⟨locals, neighbors, hw, ?_, advertises hvif hw⟩
  intro hadv
  by_contra hbad
  exact not_advertises hvif hw hbad _ hadv

end Dgrams

section Many

def nthNeighbour (N p : Nat) : OlsrEntry :=
  { destination := BitVec.ofNat 32 p, gateway := some 0, iface := some 0, metric := 1
    next := if p + 1 ≤ N then some (p + 1) else none }

def neighbourHeap (N : Nat) : OlsrHeap := fun p =>
  if p = 0 then some { interfaceEntry with children := if 1 ≤ N then some 1 else none }
  else if p ≤ N then some (nthNeighbour N p)
  else none

lemma neighbourHeap_siblings {N p m : Nat} (hp : p ≠ 0) (hm : p + m = N + 1) :
    Siblings (neighbourHeap N) (if p ≤ N then some p else none) (range' p m) := by
  induction m generalizing p with
  | zero => exact if_neg (by omega)
  | succ m ih =>
    refine ⟨if_pos (by omega), nthNeighbour N p, ?_, ih (Nat.succ_ne_zero p) (by omega)⟩
    rw [neighbourHeap, if_neg hp, if_pos (by omega)]

def manyNeighbours (N : Nat) : OlsrTree where
  olsr :=
    { entries := neighbourHeap N
      mallocs := N + 1, localInterfaces := some 0, myAnsn := 0, freshAnsn := 0, pktCounter := 0, ifaces := [0]
      router := { routerStart with addressList := fun _ => [⟨0x0100000a, 0x00ffffff⟩] }
      arpQueries := [], sent := [] }
  isTree := by
    let kids : Option Nat → List Nat
      | none => [0]
      | some 0 => range' 1 N
      | some (_ + 1) => []
    have hkid (q : Nat) (hq : q ∈ range' 1 N) : q ≠ 0 ∧ q ≤ N := by
      rw [mem_range'_1] at hq
      omega
    refine ⟨kids, fun p => if p = 0 then 0 else 1, 1, ?_⟩
    refine { roots := ⟨rfl, _, rfl, rfl⟩, child := ?_, nodup := ?_, rooted := ?_, root := ?_
             deeper := ?_, bounded := ?_, fresh := ?_ }
    · rintro (_ | _ | k) p hp
      · cases mem_singleton.mp hp
        exact ⟨_, rfl, rfl, neighbourHeap_siblings Nat.one_ne_zero (Nat.add_comm 1 N)⟩
      · obtain ⟨hne, hle⟩ := hkid p hp
        refine ⟨nthNeighbour N p, ?_, rfl, ?_⟩
        · change neighbourHeap N p = some (nthNeighbour N p)
          rw [neighbourHeap, if_neg hne, if_pos hle]
        cases p with
        | zero => exact absurd rfl hne
        | succ p => rfl
      · cases hp
    · rintro (_ | _ | k)
      · exact nodup_cons.mpr ⟨not_mem_nil, nodup_nil⟩
      · exact nodup_range'
      · exact nodup_nil
    · rintro (_ | g) hg
      · exact ⟨none, mem_singleton_self 0⟩
      · exact absurd rfl hg
    · intro p hp e he
      cases mem_singleton.mp hp
      cases he
      exact ⟨rfl, rfl⟩
    · rintro (_ | g) q hq
      · exact if_neg (hkid q hq).1
      · cases hq
    · rintro (_ | _ | k) p hp
      · cases mem_singleton.mp hp
        exact Nat.zero_le 1
      · rw [if_neg (hkid p hp).1]
      · cases hp
    · intro p hp
      have hp : N + 1 ≤ p := hp
      change neighbourHeap N p = none
      rw [neighbourHeap, if_neg (by omega), if_neg (by omega)]

lemma manyNeighbours_walks (N : Nat) : ∃ locals neighbors, OlsrWalks (manyNeighbours N).olsr locals neighbors ∧
    neighbors.length = N ∧ (otherLocals 0 locals).length = 0 := by
  have hroots : Siblings (neighbourHeap N) (some 0) [0] := ⟨rfl, _, rfl, rfl⟩
  obtain ⟨locals, hlocals, hentries⟩ := olsrSiblings_ends hroots
  have hkids (p : Nat) (hp : p ∈ [0]) :
      ∃ e, neighbourHeap N p = some e ∧ Siblings (neighbourHeap N) e.children (range' 1 N) := by
    cases mem_singleton.mp hp
    exact ⟨_, rfl, neighbourHeap_siblings Nat.one_ne_zero (Nat.add_comm 1 N)⟩
  obtain ⟨neighbors, hneighbors, hothers⟩ := @olsrNeighbors_ends _ (fun _ => range' 1 N) _ _ hentries hkids
  refine ⟨locals, neighbors, ⟨hlocals, hneighbors⟩, ?_, ?_⟩
  · rw [← hothers.length_eq]
    simp
  cases hentries with
  | cons he hnil =>
    cases hnil
    cases he
    rfl

/-- With 90 neighbours on one interface the 86th record of the TC message crosses the end of the array. -/
theorem ninety_neighbours_outside :
    (∀ᶠ n in Filter.atTop,
      olsrMakeDgram (fun _ => 0) 0 n ⟨0, 0, 0⟩ (manyNeighbours 90).olsr = .error .writeOutside) ∧
      ∀ msgs, ¬Advertises (fun _ => 0) 0 ⟨0, 0, 0⟩ (manyNeighbours 90).olsr msgs := by
  obtain ⟨locals, neighbors, hw, hN, hM⟩ := manyNeighbours_walks 90
  have hbad : ¬DgramFits neighbors.length (otherLocals 0 locals).length := by
    rw [hN, hM]
    rintro ⟨-, hneighbors⟩
    have hbytes : bytesBeforeTc 90 0 = 1100 := rfl
    rw [hbytes] at hneighbors
    omega
  exact ⟨makeDgram_outside rfl hw hbad, not_advertises rfl hw hbad⟩

theorem dgram_seen_three : ∃ locals neighbors, OlsrWalks (manyNeighbours 3).olsr locals neighbors ∧
    Advertises (fun _ => 0) 0 ⟨0, 0, 0⟩ (manyNeighbours 3).olsr (advertised 0x0100000a 0 0 locals neighbors
      (tcCount neighbors.length (otherLocals 0 locals).length)) := by
  obtain ⟨locals, neighbors, hw, hiff⟩ := dgram_seen_iff (fun _ => 0) (manyNeighbours 3) 0 ⟨0, 0, 0⟩ rfl
  obtain ⟨locals', neighbors', hw', hN, hM⟩ := manyNeighbours_walks 3
  cases hw.roots.unique hw'.roots
  cases hw.children.unique hw'.children
  refine ⟨locals, neighbors, hw, hiff.mpr ?_⟩
  rw [hN, hM]
  exact ⟨by decide, .inr (.inl (by decide))⟩

end Many

end Vde
