import Vde.Proofs.VxlanLearning

/-!
# The gateways of a VXLAN

Any number of gateways send each other datagrams, which may be lost, duplicated and delivered in any order. What a
gateway hands to its switch came from the switch of another one, and it has learned where an address was really seen.
-/

namespace Vde.Vxlan

open List Function Option

/-- A datagram on its way, with the addresses of its sender and of its destination. -/
structure Datagram where
  src : BitVec 32
  dest : BitVec 32
  bytes : List UInt8
  deriving DecidableEq

/-- The gateways by their addresses; the frames that their switches have sent and that they have handed to their
switches; and all datagrams ever sent. -/
structure Overlay where
  site : BitVec 32 → VxlanRun
  entered : List (BitVec 32 × List UInt8)
  handed : List (BitVec 32 × List UInt8)
  sent : List Datagram

def outputs (s : VxlanRun) : VxlanEvent → List Output
  | .frame stale bytes malloc now => ((plugProcess s.gateway stale bytes malloc now).map Prod.snd).getD []
  | .datagram stale srcAddr bytes malloc now => (vxlanProcess s.gateway stale srcAddr bytes malloc now).2
  | .gc _ => []

def Output.datagram (a : BitVec 32) : Output → Option Datagram
  | .sendto dest data len => some ⟨a, dest, readBytes data 0 len⟩
  | .vdeSend _ _ => none

def Output.frame (a : BitVec 32) : Output → Option (BitVec 32 × List UInt8)
  | .sendto _ _ _ => none
  | .vdeSend data len => some (a, readBytes data 0 len)

/-- An event at the gateway with the address `e.1`. -/
def overlayStep (s : Overlay) (e : BitVec 32 × VxlanEvent) : Overlay where
  site := Function.update s.site e.1 (vxlanStep (s.site e.1) e.2)
  entered := match e.2 with
    | .frame _ bytes _ _ => (e.1, bytes) :: s.entered
    | _ => s.entered
  handed := (outputs (s.site e.1) e.2).filterMap (Output.frame e.1) ++ s.handed
  sent := (outputs (s.site e.1) e.2).filterMap (Output.datagram e.1) ++ s.sent

/-- A frame has an Ethernet header and fits behind that of the datagram. A datagram was sent to the gateway or to the
group, by another one. -/
def overlayEnabled (group : BitVec 32) (s : Overlay) (e : BitVec 32 × VxlanEvent) : Prop :=
  e.2.Legal (s.site e.1).gateway ∧ match e.2 with
    | .frame _ bytes _ _ => 14 ≤ bytes.length ∧ bytes.length ≤ ethPktSize
    | .datagram _ srcAddr bytes _ _ =>
      srcAddr ≠ e.1 ∧ ∃ dest, (dest = e.1 ∨ dest = group) ∧ ⟨srcAddr, dest, bytes⟩ ∈ s.sent
    | .gc _ => True

def overlayMachine (group : BitVec 32) : Machine Overlay (BitVec 32 × VxlanEvent) := ⟨overlayEnabled group, overlayStep⟩

def overlayStart (vni group : BitVec 32) : Overlay := ⟨fun _ => vxlanStart vni group, [], [], []⟩

def srcMac (frame : List UInt8) : BitVec 48 := macAt (memcpy (fun _ => 0) 0 frame) 6

def dstMac (frame : List UInt8) : BitVec 48 := macAt (memcpy (fun _ => 0) 0 frame) 0

/-- A frame with this source has come from the switch of the gateway at `a`. -/
def Overlay.SeenAt (s : Overlay) (a : BitVec 32) (mac : BitVec 48) : Prop := ∃ f, (a, f) ∈ s.entered ∧ srcMac f = mac

/-- Frames are handed on unchanged and to another switch, and the tables and datagrams lead to where an address was
seen. -/
structure OverlayRight (vni group : BitVec 32) (s : Overlay) : Prop where
  handed : ∀ x ∈ s.handed, ∃ b, b ≠ x.1 ∧ (b, x.2) ∈ s.entered
  learned : ∀ a mac, 1 < (s.site a).gateway.findInHash mac →
    (s.site a).gateway.findInHash mac ≠ a ∧ s.SeenAt ((s.site a).gateway.findInHash mac) mac
  sent : ∀ d ∈ s.sent, ∃ f, (d.src, f) ∈ s.entered ∧ decapsulate d.bytes = some (vni.toNat, f) ∧
    (d.dest = group ∨ d.dest ≠ d.src ∧ s.SeenAt d.dest (dstMac f))

structure OverlayInv (vni group : BitVec 32) (s : Overlay) : Prop where
  stands : ∀ a, Stands (s.site a).gateway (s.site a).learner
  options : ∀ a, (s.site a).gateway.vxlanId = vni ∧ (s.site a).gateway.vxlanAddr = group
  seen : ∀ a mac x b, (s.site a).learner.seen mac = some x → x.place = .vtep b → b ≠ a ∧ s.SeenAt b mac
  sent : ∀ d ∈ s.sent, ∃ f, (d.src, f) ∈ s.entered ∧ decapsulate d.bytes = some (vni.toNat, f) ∧
    (14 ≤ f.length ∧ f.length ≤ ethPktSize) ∧ (d.dest = group ∨ d.dest ≠ d.src ∧ s.SeenAt d.dest (dstMac f))
  handed : ∀ x ∈ s.handed, ∃ b, b ≠ x.1 ∧ (b, x.2) ∈ s.entered

variable {vni group : BitVec 32} {s : Overlay} {a b : BitVec 32} {mac : BitVec 48}

lemma OverlayInv.right (h : OverlayInv vni group s) : OverlayRight vni group s := by
  refine ⟨h.handed, fun a mac hfound => ?_, fun d hd => ?_⟩
  · have hfind := (h.stands a).find mac
    cases hseen : (s.site a).learner.seen mac with
    | none =>
      rw [hfind, hseen] at hfound
      exact absurd hfound (by decide)
    | some x =>
      rw [hseen, map_some, getD_some] at hfind
      cases hplace : x.place with
      | localSwitch =>
        rw [hfind, hplace] at hfound
        exact absurd hfound (by decide)
      | vtep b =>
        rw [hfind, hplace]
        exact h.seen a mac x b hseen hplace
  obtain ⟨f, hentered, hdecap, -, hdest⟩ := h.sent d hd
  exact ⟨f, hentered, hdecap, hdest⟩

lemma overlayStart_inv (vni group : BitVec 32) : OverlayInv vni group (overlayStart vni group) where
  stands := fun _ => Stands.start vni group
  options := fun _ => ⟨rfl, rfl⟩
  seen := fun _ _ x _ hseen => absurd hseen.symm (some_ne_none x)
  sent := fun _ hd => absurd hd not_mem_nil
  handed := fun _ hx => absurd hx not_mem_nil

/-! ## The steps -/

lemma macAt_shift {mem mem' : Mem} {off off' : Nat} (h : ∀ i < 6, mem (off + i) = mem' (off' + i)) :
    macAt mem off = macAt mem' off' := by
  have h0 : mem off = mem' off' := h 0 (by decide)
  unfold macAt
  rw [h0, h 1 (by decide), h 2 (by decide), h 3 (by decide), h 4 (by decide), h 5 (by decide)]

lemma macAt_frame (stale : Mem) {f : List UInt8} {k : Nat} (h : k + 6 ≤ f.length) :
    macAt (memcpy stale 8 f) (8 + k) = macAt (memcpy (fun _ => 0) 0 f) k := by
  apply macAt_shift
  intro i hi
  have hold := memcpy_inside (fun _ => 0) 0 (k + i) f (by omega)
  rw [Nat.zero_add] at hold
  rw [Nat.add_assoc, memcpy_inside stale 8 (k + i) f (by omega), hold]

lemma macAt_datagram (stale : Mem) {d f : List UInt8} {k : Nat} (hlen : d.length = f.length + pktAt)
    (hdrop : d.drop pktAt = f) (h : k + 6 ≤ f.length) :
    macAt (memcpy stale 0 d) (8 + k) = macAt (memcpy (fun _ => 0) 0 f) k := by
  apply macAt_shift
  intro i hi
  have hwhole : pktAt = 8 := rfl
  have hnew := memcpy_inside stale 0 (8 + k + i) d (by omega)
  have hold := memcpy_inside (fun _ => 0) 0 (k + i) f (by omega)
  rw [Nat.zero_add] at hnew hold
  rw [hnew, hold]
  subst hdrop
  rw [getElem_drop]
  congr 1
  omega

lemma Learner.learn_seen {l : Learner} {mem : Bool} {now : Int} {src : BitVec 48} {place : Place} {x : Sighting}
    (h : (l.learn mem now src place).seen mac = some x) :
    (mac = src ∧ x.place = place) ∨ ∃ x', l.seen mac = some x' ∧ x'.place = x.place := by
  by_cases hmac : mac = src
  · subst hmac
    rw [Learner.learn] at h
    dsimp only at h
    rw [update_self] at h
    cases hseen : l.seen mac with
    | none =>
      rw [hseen] at h
      dsimp only at h
      split at h
      · exact Or.inl ⟨rfl, some.inj h ▸ rfl⟩
      · cases h
    | some x' =>
      rw [hseen] at h
      dsimp only at h
      split at h
      · exact Or.inl ⟨rfl, some.inj h ▸ rfl⟩
      · exact Or.inr ⟨x', rfl, some.inj h ▸ rfl⟩
  rw [Learner.learn] at h
  dsimp only at h
  rw [update_of_ne hmac] at h
  exact Or.inr ⟨x, h, rfl⟩

lemma vxlanStep_options (s : VxlanRun) (e : VxlanEvent) :
    (vxlanStep s e).gateway.vxlanId = s.gateway.vxlanId ∧ (vxlanStep s e).gateway.vxlanAddr = s.gateway.vxlanAddr := by
  cases e with
  | frame stale bytes malloc now =>
    rw [vxlanStep]
    by_cases hfits : bytes.length ≤ ethPktSize
    · rw [plugProcess_fits hfits]
      exact ⟨rfl, rfl⟩
    rw [plugProcess_overruns _ _ (Nat.not_le.mp hfits)]
    exact ⟨rfl, rfl⟩
  | datagram stale srcAddr bytes malloc now =>
    rw [vxlanStep]
    by_cases haccept : Accepted s.gateway (memcpy stale 0 bytes)
    · rw [vxlanProcess_accepts haccept]
      exact ⟨rfl, rfl⟩
    rw [vxlanProcess_rejects haccept]
    exact ⟨rfl, rfl⟩
  | gc now =>
    rw [vxlanStep, hashGc]
    dsimp only
    split <;> exact ⟨rfl, rfl⟩

/-- What a step does to the frames and datagrams is right, if it is at its own gateway. -/
lemma OverlayInv.step (h : OverlayInv vni group s) {e : BitVec 32 × VxlanEvent} (he : e.2.Legal (s.site e.1).gateway)
    (hseen : ∀ mac x b, (vxlanStep (s.site e.1) e.2).learner.seen mac = some x → x.place = .vtep b →
      b ≠ e.1 ∧ (overlayStep s e).SeenAt b mac)
    (hsent : ∀ d ∈ (outputs (s.site e.1) e.2).filterMap (Output.datagram e.1), ∃ f,
      (d.src, f) ∈ (overlayStep s e).entered ∧ decapsulate d.bytes = some (vni.toNat, f) ∧
        (14 ≤ f.length ∧ f.length ≤ ethPktSize) ∧
        (d.dest = group ∨ d.dest ≠ d.src ∧ (overlayStep s e).SeenAt d.dest (dstMac f)))
    (hhanded : ∀ x ∈ (outputs (s.site e.1) e.2).filterMap (Output.frame e.1), ∃ b,
      b ≠ x.1 ∧ (b, x.2) ∈ (overlayStep s e).entered) : OverlayInv vni group (overlayStep s e) := by
  have hentered : ∀ x ∈ s.entered, x ∈ (overlayStep s e).entered := by
    intro x hx
    unfold overlayStep
    dsimp only
    split
    · exact mem_cons_of_mem _ hx
    · exact hx
  have hmono {b : BitVec 32} {mac : BitVec 48} : s.SeenAt b mac → (overlayStep s e).SeenAt b mac :=
    fun ⟨f, hf, hmac⟩ => ⟨f, hentered _ hf, hmac⟩
  have hsite {b : BitVec 32} : (overlayStep s e).site b =
      if b = e.1 then vxlanStep (s.site e.1) e.2 else s.site b := by
    by_cases hb : b = e.1
    · rw [if_pos hb, hb]
      exact update_self ..
    rw [if_neg hb]
    exact update_of_ne hb ..
  refine ⟨fun b => ?_, fun b => ?_, fun b mac x c => ?_, fun d hd => ?_, fun x hx => ?_⟩
  · rw [hsite]
    split
    · exact (h.stands e.1).step he
    · exact h.stands b
  · rw [hsite]
    split
    · rw [(vxlanStep_options _ _).1, (vxlanStep_options _ _).2]
      exact h.options e.1
    · exact h.options b
  · rw [hsite]
    split
    · next hb =>
      rw [hb]
      exact hseen mac x c
    · exact fun hx hplace => ⟨(h.seen b mac x c hx hplace).1, hmono (h.seen b mac x c hx hplace).2⟩
  · rcases mem_append.mp hd with hnew | hold
    · exact hsent d hnew
    obtain ⟨f, hf, hdecap, hlen, hdest⟩ := h.sent d hold
    exact ⟨f, hentered _ hf, hdecap, hlen, hdest.imp_right fun hb => ⟨hb.1, hmono hb.2⟩⟩
  · rcases mem_append.mp hx with hnew | hold
    · exact hhanded x hnew
    obtain ⟨b, hb, hf⟩ := h.handed x hold
    exact ⟨b, hb, hentered _ hf⟩

lemma Learner.outward_vtep {l : Learner} {dst : BitVec 48} (h : l.outward dst = some (.vtep b)) :
    ∃ x, l.seen dst = some x ∧ x.place = .vtep b := by
  unfold Learner.outward at h
  split at h
  · cases h
  cases hx : l.seen dst with
  | none =>
    rw [hx] at h
    cases h
  | some x =>
    rw [hx, map_some] at h
    cases hplace : x.place with
    | localSwitch =>
      rw [hplace] at h
      cases h
    | vtep c =>
      rw [hplace] at h
      cases h
      exact ⟨x, rfl, hplace⟩

lemma SentAs.outs {g : Gateway} {f : List UInt8} {dest : Option Dest} {outs : List Output} (h : SentAs g f dest outs) :
    outs.filterMap (Output.frame a) = [] ∧ ∀ d ∈ outs.filterMap (Output.datagram a), ∃ p, dest = some p ∧
      d.src = a ∧ d.dest = p.address g ∧ decapsulate d.bytes = some (g.vxlanId.toNat % 2 ^ 24, f) := by
  cases dest with
  | none =>
    obtain rfl : outs = [] := h
    exact ⟨rfl, fun d hd => absurd hd not_mem_nil⟩
  | some p =>
    obtain ⟨data, len, rfl, hdecap⟩ := h
    refine ⟨rfl, fun d hd => ?_⟩
    obtain rfl := mem_singleton.mp hd
    exact ⟨p, rfl, rfl, rfl, hdecap⟩

lemma OverlayInv.frame (h : OverlayInv vni group s) (hvni : vni.toNat < 2 ^ 24) {stale : Mem} {bytes : List UInt8}
    {malloc : Option Nat} {now : Int} (he : overlayEnabled group s (a, .frame stale bytes malloc now)) :
    OverlayInv vni group (overlayStep s (a, .frame stale bytes malloc now)) := by
  obtain ⟨hmalloc, hlong, hfits⟩ := he
  have hdst : macAt (memcpy stale 8 bytes) 8 = dstMac bytes := @macAt_frame stale bytes 0 (by omega)
  obtain ⟨g, outs, hplug, hsentAs⟩ := (frameRight_iff (h.stands a) stale bytes hmalloc now).mpr hfits
  obtain ⟨hid, haddr⟩ := h.options a
  have houts : outputs (s.site a) (.frame stale bytes malloc now) = outs := by
    rw [outputs, hplug]
    rfl
  have hlearner : (vxlanStep (s.site a) (.frame stale bytes malloc now)).learner =
      afterFrame (s.site a).learner stale bytes malloc now := by
    rw [vxlanStep, hplug]
  have hseen : ∀ mac x b, (afterFrame (s.site a).learner stale bytes malloc now).seen mac = some x → x.place = .vtep b →
      b ≠ a ∧ (overlayStep s (a, .frame stale bytes malloc now)).SeenAt b mac := by
    intro mac x b hx hplace
    rcases Learner.learn_seen hx with ⟨-, hlocal⟩ | ⟨x', hold, hsame⟩
    · cases hlocal.symm.trans hplace
    obtain ⟨hne, f, hf, hmac⟩ := h.seen a mac x' b hold (hsame.trans hplace)
    exact ⟨hne, f, mem_cons_of_mem _ hf, hmac⟩
  obtain ⟨hframes, hdatagrams⟩ := @SentAs.outs a _ _ _ _ hsentAs
  refine h.step hmalloc (fun mac x b hx => hseen mac x b (hlearner ▸ hx)) (fun d hd => ?_) fun x hx => ?_
  · obtain ⟨p, hout, hsrc, hdest, hdecap⟩ := hdatagrams d (houts ▸ hd)
    rw [hid, Nat.mod_eq_of_lt hvni] at hdecap
    refine ⟨bytes, hsrc ▸ mem_cons_self, hdecap, ⟨hlong, hfits⟩, ?_⟩
    cases p with
    | group => exact Or.inl (hdest.trans haddr)
    | vtep b =>
      obtain ⟨x, hx, hplace⟩ := Learner.outward_vtep hout
      rw [hdest, hsrc, ← hdst]
      exact Or.inr (hseen _ x b hx hplace)
  rw [houts, hframes] at hx
  exact absurd hx not_mem_nil

lemma OverlayInv.datagram (h : OverlayInv vni group s) {stale : Mem} {srcAddr : BitVec 32} {bytes : List UInt8}
    {malloc : Option Nat} {now : Int} (he : overlayEnabled group s (a, .datagram stale srcAddr bytes malloc now)) :
    OverlayInv vni group (overlayStep s (a, .datagram stale srcAddr bytes malloc now)) := by
  obtain ⟨hlegal, hother, dest, -, hsent⟩ := he
  obtain ⟨f, hentered, hdecap, ⟨hlong, hfits⟩, -⟩ := h.sent _ hsent
  dsimp only at hentered hdecap
  obtain ⟨-, -, hlen, hdrop⟩ := decapsulate_buffer hdecap stale
  have hsrc : macAt (memcpy stale 0 bytes) 14 = srcMac f := @macAt_datagram stale bytes f 6 hlen hdrop (by omega)
  have hsize : bytes.length ≤ vxlanPktSize := by
    rw [hlen]
    exact Nat.add_le_add_right hfits 8
  obtain ⟨honly, hdeliver⟩ := (datagramRight_iff (h.stands a) stale hlegal.1 hlegal.2.1 bytes hlegal.2.2 now).mpr
    fun _ _ _ => hsize
  refine h.step hlegal (fun mac x b hx hplace => ?_) (fun d hd => ?_) fun x hx => ?_
  · change (afterDatagram _ _ _ _ _ _ _).seen mac = some x at hx
    unfold afterDatagram at hx
    split at hx
    · rcases Learner.learn_seen hx with ⟨hmac, hplace'⟩ | ⟨x', hold, hsame⟩
      · cases hplace'.symm.trans hplace
        exact ⟨hother, f, hentered, hsrc.symm.trans hmac.symm⟩
      · exact h.seen a mac x' b hold (hsame.trans hplace)
    · exact h.seen a mac x b hx hplace
  · obtain ⟨o, ho, heq⟩ := mem_filterMap.mp hd
    obtain ⟨data, len, rfl⟩ := honly o ho
    cases heq
  have hright := hdeliver f (by rw [(h.options a).1]; exact hdecap)
  obtain ⟨o, ho, heq⟩ := mem_filterMap.mp hx
  by_cases hin : (afterDatagram (s.site a).gateway (s.site a).learner stale srcAddr bytes malloc now).inward
      (macAt (memcpy stale 0 bytes) 8)
  · obtain ⟨data, len, houts, hread⟩ := hright.1 hin
    change o ∈ (vxlanProcess _ _ _ _ _ _).2 at ho
    rw [houts] at ho
    obtain rfl := mem_singleton.mp ho
    cases heq
    exact ⟨srcAddr, hother, hread.symm ▸ hentered⟩
  change o ∈ (vxlanProcess _ _ _ _ _ _).2 at ho
  rw [hright.2 hin] at ho
  cases ho

lemma overlayStep_inv (h : OverlayInv vni group s) (hvni : vni.toNat < 2 ^ 24) {e : BitVec 32 × VxlanEvent}
    (he : overlayEnabled group s e) : OverlayInv vni group (overlayStep s e) := by
  obtain ⟨a, e⟩ := e
  cases e with
  | frame stale bytes malloc now => exact h.frame hvni he
  | datagram stale srcAddr bytes malloc now => exact h.datagram he
  | gc now =>
    refine h.step he.1 (fun mac x b hx hplace => ?_) (fun _ hd => absurd hd not_mem_nil)
      fun _ hx => absurd hx not_mem_nil
    change ((s.site a).learner.sweep now).seen mac = some x at hx
    unfold Learner.sweep at hx
    split at hx
    · exact h.seen a mac x b (filter_eq_some_iff.mp hx).1 hplace
    · exact h.seen a mac x b hx hplace

/-- In every run of the gateways of a network, whatever becomes of the datagrams, each frame handed to a switch is one
that the switch of another gateway has sent; a table leads to another gateway, at which the address was seen; and so
does every datagram that does not go to the group. -/
theorem overlay_right (vni group : BitVec 32) (hvni : vni.toNat < 2 ^ 24) (es : List (BitVec 32 × VxlanEvent))
    (hes : (overlayMachine group).Along (overlayMachine group).enabled (overlayStart vni group) es) :
    (overlayMachine group).Always (OverlayRight vni group) (overlayStart vni group) es :=
  Machine.Along.always (OverlayInv vni group) (fun _ hs => hs.right) (fun _ _ hs he => overlayStep_inv hs hvni he)
    (overlayStart_inv vni group) hes

def helloFrame : List UInt8 := [0xFF, 0xFF, 0xFF, 0xFF, 0xFF, 0xFF, 2, 0, 0, 0, 0, 1, 8, 0]

/-- A frame goes from the gateway 1.0.0.10 to the gateway 2.0.0.10 in a datagram for the group. -/
def helloRun : List (BitVec 32 × VxlanEvent) :=
  [(0x0A000001, .frame (fun _ => 0) helloFrame (some 0) 1000),
    (0x0A000002, .datagram (fun _ => 0) 0x0A000001 ([8, 0, 0, 0, 0, 0, 7, 0] ++ helloFrame) (some 0) 1000)]

theorem overlay_right_hello :
    (overlayMachine mcastGroup).Always (OverlayRight 7 mcastGroup) (overlayStart 7 mcastGroup) helloRun := by
  refine overlay_right 7 mcastGroup (by decide) helloRun ⟨⟨fun _ _ => rfl, by decide, by decide⟩,
    ⟨⟨by decide, by decide, fun _ _ => rfl⟩, by decide, mcastGroup, Or.inr rfl, ?_⟩, trivial⟩
  decide +kernel

end Vde.Vxlan
