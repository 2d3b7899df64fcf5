import Vde.Proofs.OlsrFrame

/-!
# OLSR: the messages that are forwarded

A well-formed datagram is a row of messages. The flooding rule says of each of them, in the state in which
its turn begins, whether it belongs into the datagram that is forwarded. The code clears the time to live
of a message that is to be dropped and then lowers it, and so forwards it with the greatest time to live.
-/

namespace Vde

open List

variable {origin : Nat} {s s' : Olsr} {b : Bool} {msg l : List UInt8}

section Rule

def Dgram.sizeAt (d : Dgram) (p : Nat) : Nat := (ntohs (load16 d.mem (p + 2))).toNat

inductive Dgram.Messages (d : Dgram) : Nat → Prop
  | last : Messages d d.len
  | message {p : Nat} : 12 ≤ d.sizeAt p → p + d.sizeAt p ≤ d.len → Messages d (p + d.sizeAt p) → Messages d p

/-- What the code takes for a datagram: its length, not more than the buffer of `vder_olsr_loop` holds, and
messages behind the header. -/
structure Dgram.WellFormed (d : Dgram) : Prop where
  len : d.len = (ntohs (load16 d.mem 0)).toNat
  fits : d.len ≤ DGRAM_MAX_SIZE
  messages : d.Messages 4

def OlsrRecv.type (r : OlsrRecv) : UInt8 := r.dgram.mem r.parsed

def OlsrRecv.lowered (r : OlsrRecv) : List UInt8 :=
  readBytes (store8 r.dgram.mem (r.parsed + 8) (r.ttl - 1)) r.parsed r.size

def OlsrRecv.loweredHop (r : OlsrRecv) (hop : UInt8) : List UInt8 :=
  readBytes (store8 (store8 r.dgram.mem (r.parsed + 9) hop) (r.parsed + 8) (r.ttl - 1)) r.parsed r.size

variable (alloc : Nat → Bool)

def Reconsiders (r : OlsrRecv) (origin : Nat) (y : Olsr × Bool) : Prop :=
  ∃ r', heardFrom origin r = .ok r' ∧
    Ends (fun n => reconsiderTopology alloc r.dgram (r.parsed + 12) n ((r.size : Int) - 12) origin r'.olsr) y

/-- The message belongs into the datagram that is forwarded, in the form `msg`: it comes from a known
originator with a time to live of at least 2, and is a MID or a TC accepted as new. -/
inductive ToForward (r : OlsrRecv) : List UInt8 → Prop
  | mid {origin : Nat} : Finds r.olsr r.orig (some origin) → 2 ≤ r.ttl → r.type = OLSRMSG_MID →
      ToForward r r.lowered
  | tc {origin : Nat} {s : Olsr} {eo : OlsrEntry} : Finds r.olsr r.orig (some origin) → 2 ≤ r.ttl →
      r.type = OLSRMSG_TC → Reconsiders alloc r origin (s, true) → s.entries origin = some eo →
      ToForward r (r.loweredHop (UInt8.ofNat eo.metric.toNat))

def OlsrRecv.skip (r : OlsrRecv) : OlsrRecv := { r with parsed := r.parsed + r.size }

/-- What belongs into the forwarded datagram of the messages that are not handled any more: the MID
messages. -/
inductive Unhandled : OlsrRecv → List UInt8 → Prop
  | done {r : OlsrRecv} : r.dgram.len ≤ r.parsed → Unhandled r []
  | forward {r : OlsrRecv} {origin : Nat} {l : List UInt8} : r.parsed < r.dgram.len →
      Finds r.olsr r.orig (some origin) → 2 ≤ r.ttl → r.type = OLSRMSG_MID → Unhandled r.skip l →
      Unhandled r (r.lowered ++ l)
  | drop {r : OlsrRecv} {l : List UInt8} : r.parsed < r.dgram.len →
      (∀ origin, Finds r.olsr r.orig (some origin) → 2 ≤ r.ttl → r.type ≠ OLSRMSG_MID) → Unhandled r.skip l →
      Unhandled r l

inductive Floods : OlsrRecv → List UInt8 → Prop
  | done {r : OlsrRecv} : r.dgram.len ≤ r.parsed → Floods r []
  | forward {r r' : OlsrRecv} {msg l : List UInt8} : r.parsed < r.dgram.len → ToForward alloc r msg →
      Ends (fun n => msgTurn alloc n r) (.inl r') → Floods r' l → Floods r (msg ++ l)
  | drop {r r' : OlsrRecv} {l : List UInt8} : r.parsed < r.dgram.len → (∀ msg, ¬ToForward alloc r msg) →
      Ends (fun n => msgTurn alloc n r) (.inl r') → Floods r' l → Floods r l
  | unknown {r r' : OlsrRecv} {l : List UInt8} : r.parsed < r.dgram.len →
      Ends (fun n => msgTurn alloc n r) (.inr (r', false)) → Unhandled r'.skip l → Floods r l

def Olsr.addressed (s : Olsr) : List Nat := s.ifaces.filter (fun vif => ¬(s.router.addressList vif).isEmpty)

def Olsr.outDgram (s : Olsr) (l : List UInt8) : List UInt8 :=
  bytes16 (ntohs (BitVec.ofNat 16 (4 + l.length))) ++ bytes16 (ntohs s.pktCounter) ++ l

def Olsr.floodOut (s : Olsr) (l : List UInt8) : List (Nat × List UInt8) :=
  if l = [] then [] else s.addressed.map (fun vif => (vif, s.outDgram l))

def FloodsRight (d : Dgram) (s : Olsr) : Prop :=
  ∃ s' l, Ends (fun n => olsrRecv alloc n d s) s' ∧ Floods alloc (recvStart d s) l ∧ s'.sent = s.sent ++ s.floodOut l

/-- A message that the rule and the code treat alike: if it comes from a known originator, it is a MID or a TC
that is not known already, and its time to live is not 0. -/
def Sound (r : OlsrRecv) : Prop :=
  ∀ origin, Finds r.olsr r.orig (some origin) → r.ttl ≠ 0 ∧ (r.type = OLSRMSG_MID ∨
    r.type = OLSRMSG_TC ∧ ∀ eo, r.olsr.entries origin = some eo → ¬KnownTc r.dgram (r.parsed + 12) eo)

def Stops (r : OlsrRecv) : Prop := (∃ origin, Finds r.olsr r.orig (some origin)) ∧ ¬KnownType r

/-- When the forwarded datagram is right: no interface has an address; or every message that the loop comes to
is sound; or the loop comes to a message of unknown type, and nothing is to be forwarded. -/
def FloodOk (d : Dgram) (s : Olsr) : Prop :=
  s.addressed = [] ∨
    (∀ r, Visits (msgTurn alloc) (recvStart d s) r → r.parsed < r.dgram.len → Sound r) ∨
    (∃ r, Visits (msgTurn alloc) (recvStart d s) r ∧ r.parsed < r.dgram.len ∧ Stops r) ∧
      Floods alloc (recvStart d s) []

variable {alloc} {r r' u : OlsrRecv} {n : Nat}

section Bytes

variable {d d' : Dgram} {p : Nat}

lemma sizeAt_congr (h : ∀ i, p ≤ i → d'.mem i = d.mem i) : d'.sizeAt p = d.sizeAt p := by
  rw [Dgram.sizeAt, Dgram.sizeAt, load16_congr (fun i _ => h (p + 2 + i) (by omega))]

lemma Dgram.Messages.congr (hm : d.Messages p) (hlen : d'.len = d.len) (h : ∀ i, p ≤ i → d'.mem i = d.mem i) :
    d'.Messages p := by
  induction hm with
  | last =>
    rw [← hlen]
    exact .last
  | @message p h12 hinside _ ih =>
    have hsize := sizeAt_congr h
    refine .message (by rw [hsize]; exact h12) (by rw [hsize, hlen]; exact hinside) ?_
    rw [hsize]
    exact ih (fun i hi => h i (by omega))

lemma Dgram.Messages.next (hm : d.Messages p) (hlt : p < d.len) : 12 ≤ d.sizeAt p ∧ d.Messages (p + d.sizeAt p) := by
  cases hm with
  | last => omega
  | message h12 _ hrest => exact ⟨h12, hrest⟩

lemma Dgram.Messages.le (hm : d.Messages p) : p ≤ d.len := by
  cases hm with
  | last => exact le_rfl
  | message _ hinside _ => omega

end Bytes

lemma olsrForward_eq (h : olsrForward r = .ok r') : r' =
    { r with
      parsed := r.parsed + r.size
      dgram := { r.dgram with mem := store8 r.dgram.mem (r.parsed + 8) (r.ttl - 1) }
      outmsg := r.outmsg ++ if r.ttl = 1 then [] else r.lowered } := by
  obtain ⟨ttl, httl, h⟩ := bind_eq_ok.mp h
  obtain ⟨-, rfl⟩ := get8_iff.mp httl
  obtain ⟨d, hd, h⟩ := bind_eq_ok.mp h
  obtain ⟨-, rfl⟩ := set8_iff.mp hd
  obtain ⟨size, hsize, h⟩ := bind_eq_ok.mp h
  obtain ⟨-, rfl⟩ := msgSize_iff.mp hsize
  have hsame := (sameMsg_set (r := r) r.olsr (le_refl (r.parsed + 8)) (r.ttl - 1)).size
  rw [OlsrRecv.ttl] at hsame
  rw [hsame] at h
  by_cases hone : r.ttl = 1
  · have hcopied : ¬decide (r.dgram.mem (r.parsed + 8) - 1 > 0) = true := by
      rw [decide_eq_true_eq, ttl_lowered]
      exact not_not.mpr hone
    rw [if_neg hcopied] at h
    cases h
    rw [if_pos hone, append_nil]
    rfl
  have hcopied : decide (r.dgram.mem (r.parsed + 8) - 1 > 0) = true := by
    rw [decide_eq_true_eq, ttl_lowered]
    exact hone
  rw [if_pos hcopied] at h
  obtain ⟨msg, hmsg, h⟩ := bind_eq_ok.mp h
  obtain ⟨-, rfl⟩ := getBytes_iff.mp hmsg
  split at h
  · cases h
    rw [if_neg hone]
    rfl
  · cases h

lemma lowered_ne_nil (h : 12 ≤ r.size) : r.lowered ≠ [] := by
  intro hnil
  have hlen : r.lowered.length = r.size := readBytes_length _ _ _
  rw [hnil, length_nil] at hlen
  omega

lemma reconsiders_known {d : Dgram} {base : Nat} {size : Int} {eo : OlsrEntry}
    (h : reconsiderTopology alloc d base n size origin s = .ok (s', b)) (heo : s.entries origin = some eo) :
    KnownTc d base eo ↔ b = false := by
  obtain ⟨⟨s₁, b₁⟩, h₁, h⟩ := bind_eq_ok.mp h
  have hb : b₁ = b := by
    cases b₁ with
    | false =>
      cases h
      rfl
    | true =>
      obtain ⟨s₂, _, h⟩ := bind_eq_ok.mp h
      cases h
      rfl
  subst hb
  obtain ⟨ansn, hansn, h₁⟩ := bind_eq_ok.mp h₁
  obtain ⟨-, rfl⟩ := get16_iff.mp hansn
  obtain ⟨ee, hee, h₁⟩ := bind_eq_ok.mp h₁
  rw [read_eq heo] at hee
  cases hee
  dsimp only at h₁
  split at h₁
  · next hkept =>
    cases h₁
    exact iff_of_true hkept rfl
  next hkept =>
  split at h₁
  · cases h₁
  obtain ⟨tc, _, h₁⟩ := bind_eq_ok.mp h₁
  obtain ⟨s₂, _, h₁⟩ := bind_eq_ok.mp h₁
  cases h₁
  exact iff_of_false hkept (by simp)

structure TurnCopies (alloc : Nat → Bool) (r : OlsrRecv) (copy : List UInt8) : Prop where
  forward : (∃ msg, ToForward alloc r msg) → ToForward alloc r copy ∧ Sound r
  drop : (∀ msg, ¬ToForward alloc r msg) → (copy = [] ↔ Sound r)

lemma turnCopies_of_not {copy : List UInt8} (hcopy : copy ≠ []) (hsound : ¬Sound r)
    (hdrop : ∀ msg, ¬ToForward alloc r msg) : TurnCopies alloc r copy :=
  ⟨fun ⟨msg, hmsg⟩ => absurd hmsg (hdrop msg), fun _ => iff_of_false hcopy hsound⟩

lemma not_sound_type (hfinds : Finds r.olsr r.orig (some origin)) (hmid : r.type ≠ OLSRMSG_MID)
    (htc : r.type ≠ OLSRMSG_TC) : ¬Sound r := by
  intro h
  obtain h | ⟨h, -⟩ := (h origin hfinds).2
  · exact hmid h
  · exact htc h

lemma ToForward.type_known (h : ToForward alloc r msg) : r.type = OLSRMSG_MID ∨ r.type = OLSRMSG_TC := by
  cases h with
  | mid _ _ htype => exact .inl htype
  | tc _ _ htype _ _ => exact .inr htype

lemma ToForward.ttl_ge (h : ToForward alloc r msg) : 2 ≤ r.ttl := by
  cases h with
  | mid _ httl _ => exact httl
  | tc _ httl _ _ _ => exact httl

lemma ToForward.found (h : ToForward alloc r msg) : ∃ origin, Finds r.olsr r.orig (some origin) := by
  cases h with
  | mid hfinds _ _ => exact ⟨_, hfinds⟩
  | tc hfinds _ _ _ _ => exact ⟨_, hfinds⟩

lemma ttl_cases (x : UInt8) : x = 0 ∨ x = 1 ∨ 2 ≤ x := by
  simp only [UInt8.le_iff_toNat_le, ← UInt8.toNat_inj, UInt8.toNat_ofNat]
  omega

lemma turnCopies_of_ttl {copy : List UInt8} (hfinds : Finds r.olsr r.orig (some origin))
    (hforward : 2 ≤ r.ttl → ToForward alloc r copy) (hsound : r.ttl ≠ 0 → Sound r) (hcopy : copy ≠ []) :
    TurnCopies alloc r (if r.ttl = 1 then [] else copy) := by
  obtain hzero | hone | htwo := ttl_cases r.ttl
  · have hne : r.ttl ≠ 1 := by
      rw [hzero]
      decide
    rw [if_neg hne]
    apply turnCopies_of_not hcopy
    · intro h
      exact (h origin hfinds).1 hzero
    intro msg hmsg
    have h := hmsg.ttl_ge
    rw [hzero] at h
    exact absurd h (by decide)
  · have hne : r.ttl ≠ 0 := by
      rw [hone]
      decide
    rw [if_pos hone]
    refine ⟨?_, fun _ => iff_of_true rfl (hsound hne)⟩
    rintro ⟨msg, hmsg⟩
    have h := hmsg.ttl_ge
    rw [hone] at h
    exact absurd h (by decide)
  have hne : r.ttl ≠ 1 := by
    intro h
    rw [h] at htwo
    exact absurd htwo (by decide)
  have hne' : r.ttl ≠ 0 := by
    intro h
    rw [h] at htwo
    exact absurd htwo (by decide)
  rw [if_neg hne]
  refine ⟨fun _ => ⟨hforward htwo, hsound hne'⟩, fun hdrop => ?_⟩
  exact absurd (hforward htwo) (hdrop copy)

lemma turnCopies_of_cleared (h12 : 12 ≤ r.size) (hsound : ¬Sound r)
    (hdrop : ∀ msg, ¬ToForward alloc r msg) :
    let r₂ := { r with olsr := s, dgram := { r.dgram with mem := store8 r.dgram.mem (r.parsed + 8) 0 } }
    TurnCopies alloc r (if r₂.ttl = 1 then [] else r₂.lowered) := by
  intro r₂
  have hsame : SameMsg r r₂ := sameMsg_set s le_rfl 0
  have hne : r₂.ttl ≠ 1 := cleared_ne_one _ _
  rw [if_neg hne]
  apply turnCopies_of_not _ hsound hdrop
  apply lowered_ne_nil
  rw [hsame.size]
  exact h12

lemma handleCase_copies {r₁ r₂ : OlsrRecv} (h12 : 12 ≤ r.size)
    (hfinds : Finds r.olsr r.orig (some origin)) (h₁ : heardFrom origin r = .ok r₁)
    (h : HandleCase alloc n origin r₁ (some r₂)) : TurnCopies alloc r (if r₂.ttl = 1 then [] else r₂.lowered) := by
  obtain ⟨vtime, _, h₁'⟩ := bind_eq_ok.mp h₁
  obtain ⟨s₁, hmodify, h₁'⟩ := bind_eq_ok.mp h₁'
  cases h₁'
  obtain ⟨eo, heo, hs₁⟩ := modify_ok hmodify
  have hkept : s₁.entries origin = some { eo with linkType := OLSRLINK_MPR, timeLeft := olsr2seconds vtime } := by
    rw [hs₁]
    exact Function.update_self _ _ _
  have hsize : 12 ≤ { r with olsr := s₁ }.size := h12
  cases h with
  | hello htype _ _ =>
    have htype : r.type = OLSRMSG_HELLO := htype
    apply turnCopies_of_cleared h12
    · apply not_sound_type hfinds
      · rw [htype]
        exact hello_ne_mid
      rw [htype]
      exact hello_ne_tc
    intro msg hmsg
    obtain h | h := hmsg.type_known
    · exact hello_ne_mid (htype.symm.trans h)
    · exact hello_ne_tc (htype.symm.trans h)
  | mid htype _ =>
    have htype : r.type = OLSRMSG_MID := htype
    refine turnCopies_of_ttl hfinds (fun httl => .mid hfinds httl htype) (fun httl => ?_) (lowered_ne_nil h12)
    intro origin' _
    exact ⟨httl, .inl htype⟩
  | @knownTc s htype htc =>
    have htype : r.type = OLSRMSG_TC := htype
    have hknown := (reconsiders_known htc hkept).mpr rfl
    apply turnCopies_of_cleared h12
    · intro hsound
      obtain hmid | ⟨-, hnew⟩ := (hsound origin hfinds).2
      · exact mid_ne_tc (hmid.symm.trans htype)
      · exact hnew eo heo hknown
    intro msg hmsg
    cases hmsg with
    | mid _ _ hmid => exact mid_ne_tc (hmid.symm.trans htype)
    | tc hfinds' _ _ hnew _ =>
      cases hfinds.unique hfinds'
      obtain ⟨r', h₁', hends⟩ := hnew
      rw [h₁] at h₁'
      cases h₁'
      have hends' := FuelMono.ends (fun _ _ hnm => reconsiderTopology_below alloc _ _ hnm _ _ _) htc
      cases hends.unique hends'
  | @newTc s eo' htype htc heo' =>
    have htype : r.type = OLSRMSG_TC := htype
    have hends := FuelMono.ends (fun _ _ hnm => reconsiderTopology_below alloc _ _ hnm _ _ _) htc
    set r₂ : OlsrRecv := { r with
      olsr := s
      dgram := { r.dgram with mem := store8 r.dgram.mem (r.parsed + 9) (UInt8.ofNat eo'.metric.toNat) } } with hr₂
    have hsame : SameMsg r r₂ := sameMsg_set s (Nat.le_succ (r.parsed + 8)) _
    have httl : r₂.ttl = r.ttl := store8_outside _ _ (.inl (show r.parsed + 8 < r.parsed + 9 by omega))
    have hlowered : r₂.lowered = r.loweredHop (UInt8.ofNat eo'.metric.toNat) := by
      rw [OlsrRecv.lowered, OlsrRecv.loweredHop, hsame.size, httl]
    have hnil := lowered_ne_nil (r := r₂) (by rw [hsame.size]; exact h12)
    show TurnCopies alloc r (if r₂.ttl = 1 then [] else r₂.lowered)
    rw [hlowered] at hnil ⊢
    rw [httl]
    refine turnCopies_of_ttl hfinds (fun httl => .tc hfinds httl htype ⟨_, h₁, hends⟩ heo') (fun httl => ?_) hnil
    intro origin' hfinds'
    cases hfinds.unique hfinds'
    refine ⟨httl, .inr ⟨htype, fun eo'' heo'' hknown => ?_⟩⟩
    rw [heo] at heo''
    cases heo''
    have hfalse := (reconsiders_known htc hkept).mp hknown
    cases hfalse

lemma turn_copies (hlt : r.parsed < r.dgram.len) (h12 : 12 ≤ r.size) (hn : msgTurn alloc n r = .ok (.inl u)) :
    (u.dgram.len = r.dgram.len ∧ u.parsed = r.parsed + r.size ∧
      ∀ i, r.parsed + 12 ≤ i → u.dgram.mem i = r.dgram.mem i) ∧
    ∃ copy, u.outmsg = r.outmsg ++ copy ∧ TurnCopies alloc r copy := by
  obtain ⟨-, ⟨hnone, hu⟩ | ⟨origin, r₁, y, hfinds, h₁, hy, ⟨-, hu⟩ | ⟨r₂, r₃, rfl, h₃, hu⟩⟩⟩ := msgTurn_cases hlt hn
  · cases hu
    refine ⟨⟨rfl, rfl, fun _ _ => rfl⟩, [], (append_nil _).symm, ?_, fun _ => iff_of_true rfl ?_⟩
    · rintro ⟨msg, hmsg⟩
      obtain ⟨origin, hfinds⟩ := hmsg.found
      cases hnone.unique hfinds
    intro origin hfinds
    cases hnone.unique hfinds
  · cases hu
  cases hu
  have hcase := olsrHandle_cases hy
  have hcopies := handleCase_copies h12 hfinds h₁ hcase
  have hheard := heardFrom_same h₁
  have hsame := (olsrHandle_frame hy).2 r₂ rfl
  have hhdr := hheard.toSameHeader.trans hsame.toSameHeader
  have hdgram : r₁.dgram = r.dgram := heardFrom_dgram h₁
  rw [olsrForward_eq h₃]
  refine ⟨⟨hhdr.len, ?_, fun i hi => ?_⟩, _, ?_, hcopies⟩
  · show r₂.parsed + r₂.size = r.parsed + r.size
    rw [hhdr.parsed, hhdr.size]
  · have hbytes : r₂.dgram.mem i = r₁.dgram.mem i := hcase.behind (by rw [hheard.parsed]; omega)
    show store8 r₂.dgram.mem (r₂.parsed + 8) (r₂.ttl - 1) i = r.dgram.mem i
    rw [store8_outside _ _ (.inr (by rw [hhdr.parsed]; omega)), hbytes, hdgram]
  show r₂.outmsg ++ _ = r.outmsg ++ _
  rw [hsame.outmsg, hheard.outmsg]

lemma turn_messages (hm : r.dgram.Messages r.parsed) (hlt : r.parsed < r.dgram.len)
    (hn : msgTurn alloc n r = .ok (.inl u)) :
    u.dgram.Messages u.parsed ∧ ∃ copy, u.outmsg = r.outmsg ++ copy ∧ TurnCopies alloc r copy := by
  obtain ⟨h12, hrest⟩ := hm.next hlt
  obtain ⟨⟨hlen, hparsed, hmem⟩, hcopy⟩ := turn_copies hlt h12 hn
  have hsize : r.size = r.dgram.sizeAt r.parsed := rfl
  refine ⟨?_, hcopy⟩
  rw [hparsed, hsize]
  exact hrest.congr hlen (fun i hi => hmem i (by omega))

lemma turn_leaves (hn : msgTurn alloc n r = .ok (.inr (u, b))) : (b = true ∧ r.dgram.len ≤ r.parsed ∧ u = r) ∨
    (b = false ∧ r.parsed < r.dgram.len ∧ Stops r ∧ u.dgram = r.dgram ∧ u.parsed = r.parsed) := by
  by_cases hlt : r.parsed < r.dgram.len
  · obtain ⟨-, ⟨-, hu⟩ | ⟨origin, r₁, y, hfinds, h₁, hy, ⟨rfl, hu⟩ | ⟨r₂, r₃, rfl, h₃, hu⟩⟩⟩ := msgTurn_cases hlt hn
    · cases hu
    · cases hu
      have hheard := heardFrom_same h₁
      refine .inr ⟨rfl, hlt, ⟨⟨origin, hfinds⟩, fun hknown => ?_⟩, heardFrom_dgram h₁, hheard.parsed⟩
      exact (olsrHandle_frame hy).1.mp (hheard.knownType.mpr hknown) rfl
    · cases hu
  rw [msgTurn, if_pos (not_lt.mp hlt)] at hn
  cases hn
  exact .inl ⟨rfl, not_lt.mp hlt, rfl⟩

lemma unhandled_exists {d : Dgram} {p : Nat} (hm : d.Messages p) :
    ∀ r : OlsrRecv, r.dgram = d → r.parsed = p → ∃ l, Unhandled r l := by
  induction hm with
  | last =>
    rintro r rfl hp
    exact ⟨[], .done (by omega)⟩
  | @message p h12 hinside _ ih =>
    rintro r rfl rfl
    obtain ⟨l, hl⟩ := ih r.skip rfl rfl
    have hlt : r.parsed < r.dgram.len := by omega
    by_cases hforward : ∃ origin, Finds r.olsr r.orig (some origin) ∧ 2 ≤ r.ttl ∧ r.type = OLSRMSG_MID
    · obtain ⟨origin, hfinds, httl, htype⟩ := hforward
      exact ⟨_, .forward hlt hfinds httl htype hl⟩
    · exact ⟨l, .drop hlt (fun origin hfinds httl htype => hforward ⟨origin, hfinds, httl, htype⟩) hl⟩

lemma floods_exists {y : OlsrRecv × Bool} (hm : r.dgram.Messages r.parsed)
    (h : runLoop .hang (msgTurn alloc) n r = .ok y) : ∃ l, Floods alloc r l := by
  induction n generalizing r with
  | zero => cases h
  | succ n ih =>
    obtain ⟨x, hx, h⟩ := bind_eq_ok.mp h
    have hends := (msgTurn_mono alloc r).ends hx
    cases x with
    | inl u =>
      by_cases hlt : r.parsed < r.dgram.len
      · obtain ⟨l, hl⟩ := ih (turn_messages hm hlt hx).1 h
        by_cases hforward : ∃ msg, ToForward alloc r msg
        · obtain ⟨msg, hmsg⟩ := hforward
          exact ⟨_, .forward hlt hmsg hends hl⟩
        · exact ⟨l, .drop hlt (not_exists.mp hforward) hends hl⟩
      · exact ⟨[], .done (not_lt.mp hlt)⟩
    | inr y' =>
      obtain ⟨u, b⟩ := y'
      obtain ⟨rfl, hend, -⟩ | ⟨rfl, hlt, -, hdgram, hparsed⟩ := turn_leaves hx
      · exact ⟨[], .done hend⟩
      obtain ⟨_, hrest⟩ := hm.next hlt
      have hsize : u.size = r.dgram.sizeAt r.parsed := by
        rw [OlsrRecv.size, hdgram, hparsed]
        rfl
      have hu : u.skip.dgram.Messages u.skip.parsed := by
        show u.dgram.Messages (u.parsed + u.size)
        rw [hsize, hdgram, hparsed]
        exact hrest
      obtain ⟨l, hl⟩ := unhandled_exists hu u.skip rfl rfl
      exact ⟨l, .unknown hlt hends hl⟩

lemma ToForward.unique {msg' : List UInt8} (h : ToForward alloc r msg) (h' : ToForward alloc r msg') : msg = msg' := by
  cases h with
  | mid _ _ htype =>
    cases h' with
    | mid _ _ _ => rfl
    | tc _ _ htype' _ _ => exact absurd (htype.symm.trans htype') mid_ne_tc
  | tc hfinds _ htype hnew heo =>
    cases h' with
    | mid _ _ htype' => exact absurd (htype'.symm.trans htype) mid_ne_tc
    | tc hfinds' _ _ hnew' heo' =>
      cases hfinds.unique hfinds'
      obtain ⟨r₁, h₁, hends⟩ := hnew
      obtain ⟨r₁', h₁', hends'⟩ := hnew'
      rw [h₁] at h₁'
      cases h₁'
      cases hends.unique hends'
      rw [heo] at heo'
      cases heo'
      rfl

lemma loop_copies (hm : r.dgram.Messages r.parsed) (h : runLoop .hang (msgTurn alloc) n r = .ok (u, true))
    (hl : Floods alloc r l) : ∃ copy, u.outmsg = r.outmsg ++ copy ∧ l.length ≤ copy.length ∧
    (l = copy ↔ ∀ t, Visits (msgTurn alloc) r t → t.parsed < t.dgram.len → Sound t) := by
  induction n generalizing r l with
  | zero => cases h
  | succ n ih =>
    obtain ⟨x, hx, h⟩ := bind_eq_ok.mp h
    have hends := (msgTurn_mono alloc r).ends hx
    cases x with
    | inl r₁ =>
      have hlt : r.parsed < r.dgram.len := by
        by_contra hend
        rw [msgTurn, if_pos (not_lt.mp hend)] at hx
        cases hx
      obtain ⟨hm₁, copy, hout, hcopies⟩ := turn_messages hm hlt hx
      have hvisits : (∀ t, Visits (msgTurn alloc) r t → t.parsed < t.dgram.len → Sound t) ↔
          Sound r ∧ ∀ t, Visits (msgTurn alloc) r₁ t → t.parsed < t.dgram.len → Sound t := by
        constructor
        · intro hall
          exact ⟨hall r .start hlt, fun t ht => hall t ((visits_inl hends).mpr (.inr ht))⟩
        rintro ⟨hr, hrest⟩ t ht hlt'
        obtain rfl | ht' := (visits_inl hends).mp ht
        · exact hr
        · exact hrest t ht' hlt'
      rw [hvisits]
      cases hl with
      | done hend => omega
      | @forward _ r₁' msg l _ hmsg hends' hl =>
        cases hends.unique hends'
        obtain ⟨rest, hrest, hlen, hiff⟩ := ih hm₁ h hl
        obtain ⟨hmsg', hsound⟩ := hcopies.forward ⟨msg, hmsg⟩
        cases hmsg.unique hmsg'
        refine ⟨copy ++ rest, ?_, ?_, ?_⟩
        · rw [hrest, hout, append_assoc]
        · rw [length_append, length_append]
          omega
        rw [append_cancel_left_eq, hiff]
        exact (and_iff_right hsound).symm
      | @drop _ r₁' l _ hdrop hends' hl =>
        cases hends.unique hends'
        obtain ⟨rest, hrest, hlen, hiff⟩ := ih hm₁ h hl
        have hsound := hcopies.drop hdrop
        refine ⟨copy ++ rest, ?_, ?_, ?_⟩
        · rw [hrest, hout, append_assoc]
        · rw [length_append]
          omega
        rw [← hiff, ← hsound]
        constructor
        · intro heq
          have hcopy : copy = [] := by
            rw [heq, length_append] at hlen
            exact eq_nil_of_length_eq_zero (by omega)
          rw [hcopy] at heq
          exact ⟨hcopy, heq⟩
        rintro ⟨rfl, rfl⟩
        rfl
      | unknown _ hends' _ => cases hends.unique hends'
    | inr y =>
      cases h
      obtain ⟨-, hend, rfl⟩ | ⟨hfalse, -⟩ := turn_leaves hx
      · have hnil : l = [] := by
          cases hl with
          | done _ => rfl
          | forward hlt _ _ _ => omega
          | drop hlt _ _ _ => omega
          | unknown hlt _ _ => omega
        subst hnil
        refine ⟨[], (append_nil _).symm, le_rfl, iff_of_true rfl ?_⟩
        intro t ht hlt
        cases (visits_inr hends).mp ht
        omega
      · cases hfalse

lemma stops_iff (h : runLoop .hang (msgTurn alloc) n r = .ok (u, b)) :
    b = false ↔ ∃ t, Visits (msgTurn alloc) r t ∧ t.parsed < t.dgram.len ∧ Stops t := by
  obtain ⟨t, ht, hleaves⟩ := exists_leaves (msgTurn_mono alloc) h
  obtain ⟨m, hm⟩ := hleaves.exists
  obtain ⟨rfl, hend, -⟩ | ⟨rfl, hlt, hstops, -, -⟩ := turn_leaves hm
  · apply iff_of_false (by simp)
    rintro ⟨t', ht', hlt', ⟨origin, hfinds⟩, hunknown⟩
    have hloop := runLoop_ends_of_ok (msgTurn_mono alloc) h
    obtain ⟨k, x, hx⟩ := ht'.turn_ok hloop
    obtain ⟨-, ⟨hnone, -⟩ | ⟨origin', r₁, y, -, h₁, hy, ⟨rfl, rfl⟩ | ⟨r₂, r₃, rfl, -, -⟩⟩⟩ := msgTurn_cases hlt' hx
    · cases hnone.unique hfinds
    · cases hloop.unique ((runLoop_ends_iff (msgTurn_mono alloc)).mpr
        ⟨t', ht', (msgTurn_mono alloc t').ends hx⟩)
    have hknown := (olsrHandle_frame hy).1.mpr (by simp)
    exact hunknown ((heardFrom_same h₁).knownType.mp hknown)
  · exact iff_of_true rfl ⟨t, ht, hlt, hstops⟩

lemma Dgram.WellFormed.header {d : Dgram} (h : d.WellFormed) : 2 ≤ d.len := by
  have := h.messages.le
  omega

lemma floodOut_inj {l' : List UInt8} (hs : s.addressed ≠ []) (h : s.floodOut l = s.floodOut l') : l = l' := by
  obtain ⟨vif, rest, hvifs⟩ := exists_cons_of_ne_nil hs
  unfold Olsr.floodOut at h
  rw [hvifs] at h
  split at h
  · next hl =>
    split at h
    · next hl' => rw [hl, hl']
    · cases h
  split at h
  · cases h
  rw [map_cons, map_cons, cons.injEq, Prod.mk.injEq] at h
  have hout : (s.outDgram l).drop 4 = (s.outDgram l').drop 4 := by rw [h.1.2]
  exact hout

lemma floodOut_nil (s : Olsr) : s.floodOut [] = [] := if_pos rfl

lemma floodOut_quiet (hs : s.addressed = []) (l : List UInt8) : s.floodOut l = [] := by
  unfold Olsr.floodOut
  split
  · rfl
  · rw [hs, map_nil]

lemma loop_sent {d : Dgram} {y : OlsrRecv × Bool}
    (h : runLoop .hang (msgTurn alloc) n (recvStart d s) = .ok y) : SameWire s y.1.olsr := by
  refine runLoop_yields (P := fun r => SameWire s r.olsr) (Q := fun y => SameWire s y.1.olsr) ?_ n (.refl s) y h
  intro n r hr
  refine (msgTurn_wire alloc n r).mono ?_
  rintro (r' | y') hx
  · exact hr.trans hx
  · exact hr.trans hx

lemma recv_sent {d : Dgram} (hd : d.WellFormed) (h : olsrRecv alloc n d s = .ok s') : ∃ u b,
    runLoop .hang (msgTurn alloc) n (recvStart d s) = .ok (u, b) ∧ s'.sent =
    s.sent ++ s.floodOut (if b then u.outmsg else []) := by
  rw [olsrRecv_loop hd.header hd.len] at h
  obtain ⟨⟨u, b⟩, hloop, h⟩ := bind_eq_ok.mp h
  refine ⟨u, b, hloop, ?_⟩
  have hwire := loop_sent hloop
  cases b with
  | false =>
    cases h
    show u.olsr.sent = s.sent ++ s.floodOut []
    rw [hwire.sent, floodOut_nil, append_nil]
  | true =>
    cases h
    show (olsrSend u).sent = s.sent ++ s.floodOut u.outmsg
    unfold olsrSend Olsr.floodOut Olsr.addressed Olsr.outDgram
    dsimp only
    split
    · rw [hwire.sent, append_nil]
    dsimp only
    rw [hwire.sent, hwire.ifaces, hwire.addresses, hwire.pktCounter]
    rfl

lemma sent_right_iff {d : Dgram} (hd : d.WellFormed)
    (h : olsrRecv alloc n d s = .ok s') (hl : Floods alloc (recvStart d s) l) (hs : s.addressed ≠ []) : s'.sent =
    s.sent ++ s.floodOut l ↔ (∀ r, Visits (msgTurn alloc) (recvStart d s) r → r.parsed < r.dgram.len → Sound r) ∨
    (∃ r, Visits (msgTurn alloc) (recvStart d s) r ∧ r.parsed < r.dgram.len ∧ Stops r) ∧ l = [] := by
  obtain ⟨u, b, hloop, hsent⟩ := recv_sent hd h
  have hstops := stops_iff hloop
  rw [hsent, append_cancel_left_eq]
  cases b with
  | false =>
    have hstop := hstops.mp rfl
    constructor
    · intro heq
      exact .inr ⟨hstop, (floodOut_inj hs heq).symm⟩
    rintro (hsound | ⟨-, rfl⟩)
    · obtain ⟨t, ht, hlt, ⟨origin, hfinds⟩, hunknown⟩ := hstop
      obtain htype | ⟨htype, -⟩ := (hsound t ht hlt origin hfinds).2
      · exact absurd (.inr (.inl htype)) hunknown
      · exact absurd (.inr (.inr htype)) hunknown
    · rfl
  | true =>
    have hnot : ¬∃ t, Visits (msgTurn alloc) (recvStart d s) t ∧ t.parsed < t.dgram.len ∧ Stops t := by
      rw [← hstops]
      simp
    obtain ⟨copy, hout, _, hiff⟩ := loop_copies hd.messages hloop hl
    have hout : u.outmsg = copy := hout
    show s.floodOut u.outmsg = s.floodOut l ↔ _
    rw [hout, ← hiff]
    constructor
    · intro heq
      exact .inl (floodOut_inj hs heq).symm
    rintro (rfl | ⟨hstop, -⟩)
    · rfl
    · exact absurd hstop hnot

/-- For every well-formed datagram the forwarded datagram is what the flooding rule says exactly if the call
returns and every message that it comes to is sound, or one of unknown type comes and nothing was to be
forwarded, or there is no interface to forward it on. -/
theorem flooding_right_iff (alloc : Nat → Bool) (d : Dgram) (t : OlsrTree) (hd : d.WellFormed) :
    FloodsRight alloc d t.olsr ↔ DgramOk alloc d t.olsr ∧ FloodOk alloc d t.olsr := by
  constructor
  · rintro ⟨s', l, hends, hl, hsent⟩
    refine ⟨(returns_iff_dgramOk alloc d t).mp ⟨s', hends⟩, ?_⟩
    obtain ⟨n, hn⟩ := hends.exists
    by_cases hs : t.olsr.addressed = []
    · exact .inl hs
    obtain hsound | ⟨hstop, rfl⟩ := (sent_right_iff hd hn hl hs).mp hsent
    · exact .inr (.inl hsound)
    · exact .inr (.inr ⟨hstop, hl⟩)
  rintro ⟨hok, hflood⟩
  obtain ⟨s', hends⟩ := (returns_iff_dgramOk alloc d t).mpr hok
  obtain ⟨n, hn⟩ := hends.exists
  obtain ⟨u, b, hloop, hsent⟩ := recv_sent hd hn
  obtain ⟨l, hl⟩ : ∃ l, Floods alloc (recvStart d t.olsr) l := floods_exists hd.messages hloop
  by_cases hs : t.olsr.addressed = []
  · refine ⟨s', l, hends, hl, ?_⟩
    rw [hsent, floodOut_quiet hs, floodOut_quiet hs]
  obtain hquiet | hsound | ⟨hstop, hnil⟩ := hflood
  · exact absurd hquiet hs
  · exact ⟨s', l, hends, hl, (sent_right_iff hd hn hl hs).mpr (.inl hsound)⟩
  · exact ⟨s', [], hends, hnil, (sent_right_iff hd hn hnil hs).mpr (.inr ⟨hstop, rfl⟩)⟩

def neighbourEntry : OlsrEntry :=
  { destination := 0x0900000a, gateway := some 0, iface := some 0, metric := 1, lq := 255, nlq := 255 }

def oneNeighbour : OlsrTree where
  olsr :=
    { entries := fun
        | 0 => some { interfaceEntry with children := some 1 }
        | 1 => some neighbourEntry
        | _ => none
      mallocs := 2, localInterfaces := some 0, myAnsn := 0, freshAnsn := 0, pktCounter := 0, ifaces := [0]
      router := { routerStart with addressList := fun _ => [⟨0x0100000a, 0x00ffffff⟩] }
      arpQueries := [], sent := [] }
  isTree := by
    let kids : Option Nat → List Nat
      | none => [0]
      | some 0 => [1]
      | some (_ + 1) => []
    refine ⟨kids, fun p => p, 1, ?_⟩
    refine { roots := ⟨rfl, _, rfl, rfl⟩, child := ?_, nodup := ?_, rooted := ?_, root := ?_
             deeper := ?_, bounded := ?_, fresh := ?_ }
    · rintro (_ | _ | k) p hp
      · cases mem_singleton.mp hp
        exact ⟨_, rfl, rfl, rfl, _, rfl, rfl⟩
      · cases mem_singleton.mp hp
        exact ⟨_, rfl, rfl, rfl⟩
      · cases hp
    · rintro (_ | _ | k)
      · exact nodup_cons.mpr ⟨not_mem_nil, nodup_nil⟩
      · exact nodup_cons.mpr ⟨not_mem_nil, nodup_nil⟩
      · exact nodup_nil
    · rintro (_ | g) hg
      · exact ⟨none, mem_singleton_self 0⟩
      · exact absurd rfl hg
    · intro p hp e he
      cases mem_singleton.mp hp
      cases he
      exact ⟨rfl, rfl⟩
    · rintro (_ | g) q hq
      · cases mem_singleton.mp hq
        rfl
      · cases hq
    · rintro (_ | _ | k) p hp
      · cases mem_singleton.mp hp
        exact Nat.zero_le 1
      · cases mem_singleton.mp hp
        exact le_rfl
      · cases hp
    · rintro (_ | _ | p) hp
      · exact absurd hp (by decide)
      · exact absurd hp (by decide)
      · rfl

def oneMessage (type : UInt8) : Dgram where
  mem := fun i => [0, 20, 0, 0, type, 0, 0, 16, 10, 0, 0, 9, 5, 0, 0, 1, 10, 0, 1, 9].getD i 0
  len := 20

lemma oneMessage_wellFormed (type : UInt8) : (oneMessage type).WellFormed := by
  have hsize : (oneMessage type).sizeAt 4 = 16 := by
    show (ntohs (load16 (oneMessage 0).mem 6)).toNat = 16
    decide
  have hlen : (oneMessage type).len = 20 := rfl
  have hfield : (ntohs (load16 (oneMessage type).mem 0)).toNat = 20 := by
    show (ntohs (load16 (oneMessage 0).mem 0)).toNat = 20
    decide
  refine ⟨hfield.symm, show 20 ≤ 1800 by decide, .message (by omega) (by omega) ?_⟩
  rw [hsize]
  exact .last

lemma olsrRecv_below {d : Dgram} {m : Nat} (h2 : 2 ≤ d.len) (hlen : d.len = (ntohs (load16 d.mem 0)).toNat)
    (hnm : n ≤ m) : Below (olsrRecv alloc n d s) (olsrRecv alloc m d s) := by
  rw [olsrRecv_loop h2 hlen, olsrRecv_loop h2 hlen]
  exact .bind (runLoop_below (msgTurn_mono alloc) hnm _) (fun _ => .refl _)

theorem flooding_right_iff_mid : FloodsRight (fun _ => true) (oneMessage OLSRMSG_MID) oneNeighbour.olsr := by
  have hd := oneMessage_wellFormed OLSRMSG_MID
  have hreturns : (olsrRecv (fun _ => true) 8 (oneMessage OLSRMSG_MID) oneNeighbour.olsr).isOk = true := by
    decide +kernel
  cases hrun : olsrRecv (fun _ => true) 8 (oneMessage OLSRMSG_MID) oneNeighbour.olsr with
  | error e =>
    rw [hrun] at hreturns
    cases hreturns
  | ok s' =>
    have hends : Ends (fun n => olsrRecv (fun _ => true) n (oneMessage OLSRMSG_MID) oneNeighbour.olsr) s' :=
      FuelMono.ends (fun _ _ hnm => olsrRecv_below hd.header hd.len hnm) hrun
    refine (flooding_right_iff _ _ oneNeighbour hd).mpr
      ⟨(returns_iff_dgramOk _ _ oneNeighbour).mp ⟨s', hends⟩, .inr (.inl fun r hv hlt => ?_)⟩
    -- the loop comes to one message only
    have hfirst : r = recvStart (oneMessage OLSRMSG_MID) oneNeighbour.olsr ∨ r.dgram.len ≤ r.parsed := by
      refine hv.keeps (P := fun r => r = recvStart (oneMessage OLSRMSG_MID) oneNeighbour.olsr ∨ r.dgram.len ≤ r.parsed)
        (.inl rfl) ?_
      rintro r u - (rfl | hend) hturn
      · right
        have hmoves : ((msgTurn (fun _ => true) 8 (recvStart (oneMessage OLSRMSG_MID) oneNeighbour.olsr)).toOption.any
            fun x => x.elim (fun t => t.dgram.len ≤ t.parsed) fun _ => false) = true := by decide +kernel
        cases hx : msgTurn (fun _ => true) 8 (recvStart (oneMessage OLSRMSG_MID) oneNeighbour.olsr) with
        | error e =>
          rw [hx] at hmoves
          cases hmoves
        | ok x =>
          rw [hx, (FuelMono.ends (msgTurn_mono _ _) hx).unique hturn] at hmoves
          exact of_decide_eq_true hmoves
      have hstop : Ends (fun n => msgTurn (fun _ => true) n r) (.inr (r, true)) := ends_of_forall fun n => if_pos hend
      cases hstop.unique hturn
    rcases hfirst with rfl | hend
    · exact fun _ _ => ⟨by decide, .inl (by decide)⟩
    · omega

theorem hello_flooded :
    (∃ s', Ends (fun n => olsrRecv (fun _ => true) n (oneMessage OLSRMSG_HELLO) oneNeighbour.olsr) s' ∧
      s'.sent = [(0, [0, 20, 0, 0, 0xc9, 0, 0, 16, 10, 0, 0, 9, 255, 0, 0, 1, 10, 0, 1, 9])]) ∧
    ¬FloodsRight (fun _ => true) (oneMessage OLSRMSG_HELLO) oneNeighbour.olsr := by
  have hsends : (match olsrRecv (fun _ => true) 8 (oneMessage OLSRMSG_HELLO) oneNeighbour.olsr with
      | .ok s => s.sent
      | .error _ => []) = [(0, [0, 20, 0, 0, 0xc9, 0, 0, 16, 10, 0, 0, 9, 255, 0, 0, 1, 10, 0, 1, 9])] := by
    decide +kernel
  have hd := oneMessage_wellFormed OLSRMSG_HELLO
  cases hrun : olsrRecv (fun _ => true) 8 (oneMessage OLSRMSG_HELLO) oneNeighbour.olsr with
  | error e =>
    rw [hrun] at hsends
    cases hsends
  | ok s' =>
    rw [hrun] at hsends
    have hends : Ends (fun n => olsrRecv (fun _ => true) n (oneMessage OLSRMSG_HELLO) oneNeighbour.olsr) s' :=
      FuelMono.ends (fun _ _ hnm => olsrRecv_below hd.header hd.len hnm) hrun
    refine ⟨⟨s', hends, hsends⟩, ?_⟩
    rintro ⟨s'', l, hends'', hl, hsent⟩
    cases hends.unique hends''
    obtain hsound | ⟨-, rfl⟩ := (sent_right_iff hd hrun hl (by decide)).mp hsent
    · have hlookup : getRouteByAddress oneNeighbour.olsr.entries 0x0900000a 8 (some 0) = .ok (some 1) := by
        decide +kernel
      have htype := (hsound _ .start (show 4 < 20 by decide) 1 (finds_of_ok hlookup)).2
      exact absurd htype (by rintro (h | ⟨h, -⟩) <;> exact absurd h (by decide))
    have hsends : s'.sent = _ := hsends
    rw [hsends, floodOut_nil] at hsent
    cases hsent

end Rule

end Vde
