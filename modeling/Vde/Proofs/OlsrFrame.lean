import Vde.Proofs.OlsrRecv

/-!
# OLSR: the handlers send nothing

Handling the messages of a datagram changes the tree, the routes and the sequence numbers. What was sent
before, the interfaces with their addresses and the number of the next datagram stay as they are.
-/

namespace Vde

section Wire

structure SameWire (s s' : Olsr) : Prop where
  sent : s'.sent = s.sent
  ifaces : s'.ifaces = s.ifaces
  addresses : s'.router.addressList = s.router.addressList
  pktCounter : s'.pktCounter = s.pktCounter

variable {s s' : Olsr}

lemma SameWire.refl (s : Olsr) : SameWire s s := ⟨rfl, rfl, rfl, rfl⟩

lemma SameWire.trans {s'' : Olsr} (h : SameWire s s') (h' : SameWire s' s'') : SameWire s s'' :=
  ⟨h'.sent.trans h.sent, h'.ifaces.trans h.ifaces, h'.addresses.trans h.addresses,
    h'.pktCounter.trans h.pktCounter⟩

lemma SameWire.yields {x : Except OlsrFault Olsr} (h : SameWire s s') (hx : Yields (SameWire s') x) :
    Yields (SameWire s) x := hx.mono (fun _ h' => h.trans h')

variable (s)

lemma modify_wire (p : Nat) (f : OlsrEntry → OlsrEntry) : Yields (SameWire s) (s.modify p f) := by
  refine .skip ?_
  intro e
  exact yields_ok ⟨rfl, rfl, rfl, rfl⟩

lemma free_wire (p : Option Nat) : Yields (SameWire s) (s.free p) := by
  cases p with
  | none => exact yields_ok (.refl s)
  | some p =>
    refine .skip ?_
    intro e
    exact yields_ok ⟨rfl, rfl, rfl, rfl⟩

variable (alloc : Nat → Bool)

lemma malloc_wire : SameWire s (s.malloc alloc).2 := by
  unfold Olsr.malloc
  split
  · exact ⟨rfl, rfl, rfl, rfl⟩
  · exact ⟨rfl, rfl, rfl, rfl⟩

lemma addRoute_wire (n el : Nat) : Yields (SameWire s) (addRoute alloc n el s) := by
  refine .skip ?_
  rintro (_ | nexthop)
  · exact yields_error _ _
  refine .skip ?_
  intro eh
  refine .skip ?_
  intro e
  have hroute : SameWire s (s.routeAdd alloc e.destination eh.destination e.metric) := ⟨rfl, rfl, rfl, rfl⟩
  exact hroute.yields (modify_wire _ _ _)

lemma addToGateway_wire (n el g : Nat) : Yields (SameWire s) (addToGateway alloc n el g s) := by
  refine .skip ?_
  intro eg
  refine .bind (modify_wire s _ _) ?_
  intro s₁ h₁
  refine .bind (modify_wire s₁ _ _) ?_
  intro s₂ h₂
  exact (h₁.trans h₂).yields (addRoute_wire s₂ alloc n el)

lemma addToIface_wire (n el : Nat) (vif : Option Nat) : Yields (SameWire s) (addToIface n el vif s) := by
  refine .skip ?_
  intro ei
  refine .bind (modify_wire s _ _) ?_
  intro s₁ h₁
  cases ei with
  | none => exact yields_ok h₁
  | some p =>
    refine .skip ?_
    intro ep
    refine .bind (modify_wire s₁ _ _) ?_
    intro s₂ h₂
    exact (h₁.trans h₂).yields (modify_wire s₂ _ _)

lemma olsrRouteAdd_wire (n el : Nat) : Yields (SameWire s) (olsrRouteAdd alloc n el s) := by
  refine .skip ?_
  intro e
  have hansn : SameWire s { s with myAnsn := if fresher s.freshAnsn s.myAnsn then s.freshAnsn + 1 else s.myAnsn + 1 } :=
    ⟨rfl, rfl, rfl, rfl⟩
  cases e.gateway with
  | some g => exact hansn.yields (addToGateway_wire _ alloc n el g)
  | none =>
    dsimp only
    split
    · exact hansn.yields (addToIface_wire _ n el _)
    · exact yields_ok hansn

lemma delLink_wire (e : OlsrEntry) (prev : Option Nat) : Yields (SameWire s) (delLink e prev s) := by
  unfold delLink
  cases e.gateway with
  | none => exact yields_ok (.refl s)
  | some g =>
    have hroute : SameWire s (s.routeDel e.destination e.metric) := ⟨rfl, rfl, rfl, rfl⟩
    cases prev with
    | none => exact hroute.yields (modify_wire _ _ _)
    | some q => exact hroute.yields (modify_wire _ _ _)

lemma del_wire (n r : Nat) :
    Yields (SameWire s) (olsrRouteDel n r s) ∧ Yields (SameWire s) (delChildren n r s) := by
  induction n generalizing r s with
  | zero => exact ⟨yields_error _ _, yields_error _ _⟩
  | succ n ih =>
    constructor
    · refine .skip ?_
      intro e
      refine .skip ?_
      intro lst
      refine .skip ?_
      have hansn : SameWire s { s with myAnsn := if fresher s.freshAnsn s.myAnsn then s.freshAnsn + 1 else s.myAnsn } :=
        ⟨rfl, rfl, rfl, rfl⟩
      rintro (_ | prev)
      · exact yields_ok hansn
      refine .bind (hansn.yields (delLink_wire _ e prev)) ?_
      intro s₁ h₁
      exact h₁.yields (ih s₁ r).2
    refine .skip ?_
    intro e
    cases e.children with
    | none => exact yields_ok (.refl s)
    | some c =>
      refine .bind (ih s c).1 ?_
      intro s₁ h₁
      refine .skip ?_
      intro e'
      refine .bind (free_wire s₁ _) ?_
      intro s₂ h₂
      exact (h₁.trans h₂).yields (ih s₂ r).2

lemma reposition_wire (n origin : Nat) : Yields (SameWire s) (reposition alloc n origin s) := by
  refine .skip ?_
  intro eo
  refine .skip ?_
  rintro (_ | ancestor)
  · exact yields_ok (.refl s)
  dsimp only
  split
  · refine .bind (del_wire s n origin).1 ?_
    intro s₁ h₁
    refine .bind (modify_wire s₁ _ _) ?_
    intro s₂ h₂
    exact (h₁.trans h₂).yields (olsrRouteAdd_wire s₂ alloc n origin)
  · exact yields_ok (.refl s)

variable (d : Dgram) (base : Nat)

lemma midTurn_wire (len : Int) (origin n p : Nat) :
    Yields (fun x => Sum.elim (fun t => SameWire s t.2) (SameWire s) x) (midTurn alloc d base len origin n (p, s)) := by
  simp only [midTurn]
  split
  · exact yields_ok (.refl s)
  refine .skip ?_
  intro address
  refine .skip ?_
  rintro (_ | e)
  · have hm := malloc_wire s alloc
    cases hs : s.malloc alloc with
    | mk q s₁ =>
      rw [hs] at hm
      cases q with
      | none => exact yields_ok hm
      | some e =>
        refine .skip ?_
        intro eo
        refine .bind (hm.yields (modify_wire s₁ _ _)) ?_
        intro s₂ h₂
        refine .bind (h₂.yields (olsrRouteAdd_wire s₂ alloc n e)) ?_
        intro s₃ h₃
        exact yields_ok (h₃.trans ⟨rfl, rfl, rfl, rfl⟩)
  refine .skip ?_
  intro ee
  refine .skip ?_
  intro eo
  split
  · refine .bind (del_wire s n e).1 ?_
    intro s₁ h₁
    refine .skip ?_
    intro eo'
    refine .bind (h₁.yields (modify_wire s₁ _ _)) ?_
    intro s₂ h₂
    refine .bind (h₂.yields (olsrRouteAdd_wire s₂ alloc n e)) ?_
    intro s₃ h₃
    exact yields_ok h₃
  · exact yields_ok (.refl s)

lemma helloTurn_wire (len : Int) (origin n p : Nat) :
    Yields (fun x => Sum.elim (fun t => SameWire s t.2) (SameWire s) x)
      (helloTurn alloc d base len origin n (p, s)) := by
  simp only [helloTurn]
  split
  · exact yields_ok (.refl s)
  refine .skip ?_
  intro size
  refine .skip ?_
  intro addr
  refine .skip ?_
  rintro (_ | e)
  · have hm := malloc_wire s alloc
    cases hs : s.malloc alloc with
    | mk q s₁ =>
      rw [hs] at hm
      cases q with
      | none => exact yields_ok hm
      | some e =>
        refine .skip ?_
        intro eo
        refine .skip ?_
        intro lq
        refine .skip ?_
        intro nlq
        refine .bind (hm.yields (modify_wire s₁ _ _)) ?_
        intro s₂ h₂
        refine .bind (h₂.yields (olsrRouteAdd_wire s₂ alloc n e)) ?_
        intro s₃ h₃
        exact yields_ok (h₃.trans ⟨rfl, rfl, rfl, rfl⟩)
  refine .skip ?_
  intro ee
  refine .skip ?_
  intro eo
  split
  · refine .bind (del_wire s n e).1 ?_
    intro s₁ h₁
    refine .skip ?_
    intro eo'
    refine .bind (h₁.yields (modify_wire s₁ _ _)) ?_
    intro s₂ h₂
    refine .bind (h₂.yields (olsrRouteAdd_wire s₂ alloc n e)) ?_
    intro s₃ h₃
    exact yields_ok h₃
  · exact yields_ok (.refl s)

lemma placeUnder_wire (n off e rt : Nat) : Yields (SameWire s) (placeUnder alloc d n off e rt s) := by
  refine .skip ?_
  intro ee
  refine .skip ?_
  intro lq
  refine .skip ?_
  intro nlq
  refine .bind (modify_wire s _ _) ?_
  intro s₁ h₁
  exact h₁.yields (olsrRouteAdd_wire s₁ alloc n rt)

lemma tcTurn_wire (size : Int) (e n p : Nat) :
    Yields (fun x => Sum.elim (fun t => SameWire s t.2) (SameWire s) x) (tcTurn alloc d base size e n (p, s)) := by
  simp only [tcTurn]
  split
  · exact yields_ok (.refl s)
  refine .skip ?_
  intro addr
  refine .skip ?_
  rintro (_ | rt)
  · have hm := malloc_wire s alloc
    cases hs : s.malloc alloc with
    | mk q s₁ =>
      rw [hs] at hm
      cases q with
      | none => exact yields_error _ _
      | some rt =>
        refine .bind (hm.yields (modify_wire s₁ _ _)) ?_
        intro s₂ h₂
        refine .bind (h₂.yields (placeUnder_wire s₂ alloc d n _ e rt)) ?_
        intro s₃ h₃
        exact yields_ok h₃
  refine .skip ?_
  intro x
  refine .skip ?_
  intro ee
  split
  · refine .bind (modify_wire s _ _) ?_
    intro s₁ h₁
    exact yields_ok h₁
  refine .skip ?_
  intro moves
  split
  · refine .bind (del_wire s n rt).1 ?_
    intro s₁ h₁
    refine .bind (h₁.yields (placeUnder_wire s₁ alloc d n _ e rt)) ?_
    intro s₂ h₂
    exact yields_ok h₂
  · exact yields_ok (.refl s)

lemma loop_wire {turn : Nat → Nat × Olsr → Except OlsrFault ((Nat × Olsr) ⊕ Olsr)}
    (h : ∀ n p s, Yields (fun x => Sum.elim (fun t => SameWire s t.2) (SameWire s) x) (turn n (p, s))) (n p : Nat) :
    Yields (SameWire s) (runLoop .hang turn n (p, s)) := by
  refine runLoop_yields (P := fun t : Nat × Olsr => SameWire s t.2) ?_ n (.refl s)
  intro n t ht
  refine (h n t.1 t.2).mono ?_
  rintro (t' | s') hx
  · exact ht.trans hx
  · exact ht.trans hx

lemma recvMid_wire (n : Nat) (len : Int) (origin : Nat) :
    Yields (SameWire s) (recvMid alloc d base n len origin s) := by
  unfold recvMid
  split
  · exact yields_ok (.refl s)
  · exact loop_wire s (fun n p s => midTurn_wire s alloc d base len origin n p) n 0

lemma recvHello_wire (n : Nat) (len : Int) (origin : Nat) :
    Yields (SameWire s) (recvHello alloc d base n len (some origin) s) :=
  loop_wire s (fun n p s => helloTurn_wire s alloc d base len origin n p) n 0

lemma advertise_wire (size : Int) (e : Nat) :
    Yields (fun x => SameWire s x.1) (advertise alloc d base size e s) := by
  refine .skip ?_
  intro ansn
  refine .skip ?_
  intro ee
  dsimp only
  split
  · exact yields_ok ⟨rfl, rfl, rfl, rfl⟩
  split
  · exact yields_error _ _
  refine .skip ?_
  intro tc
  refine .bind (modify_wire _ _ _) ?_
  intro s₁ h₁
  refine yields_ok (SameWire.trans ?_ h₁)
  exact ⟨rfl, rfl, rfl, rfl⟩

lemma reconsiderTopology_wire (n : Nat) (size : Int) (e : Nat) :
    Yields (fun x => SameWire s x.1) (reconsiderTopology alloc d base n size e s) := by
  refine .bind (advertise_wire s alloc d base size e) ?_
  rintro ⟨s₁, _ | _⟩ h₁
  · exact yields_ok h₁
  refine .bind (h₁.yields (loop_wire s₁ (fun n p s => tcTurn_wire s alloc d base size e n p) n 4)) ?_
  intro s₂ h₂
  exact yields_ok h₂

lemma heardFrom_wire (origin : Nat) (r : OlsrRecv) :
    Yields (fun r' => SameWire r.olsr r'.olsr) (heardFrom origin r) := by
  refine .skip ?_
  intro vtime
  refine .bind (modify_wire r.olsr _ _) ?_
  intro s₁ h₁
  exact yields_ok h₁

lemma handleCase_wire {n origin : Nat} {r r' : OlsrRecv} (h : HandleCase alloc n origin r (some r')) :
    SameWire r.olsr r'.olsr := by
  cases h with
  | hello _ h₁ h₂ => exact (reposition_wire _ alloc n origin _ h₁).trans (recvHello_wire _ alloc _ _ n _ _ _ h₂)
  | mid _ h₁ => exact recvMid_wire _ alloc _ _ n _ _ _ h₁
  | knownTc _ h₁ => exact reconsiderTopology_wire _ alloc _ _ n _ _ _ h₁
  | newTc _ h₁ _ => exact reconsiderTopology_wire _ alloc _ _ n _ _ _ h₁

lemma msgTurn_wire (n : Nat) (r : OlsrRecv) :
    Yields (fun x => Sum.elim (fun r' => SameWire r.olsr r'.olsr) (fun y => SameWire r.olsr y.1.olsr) x)
      (msgTurn alloc n r) := by
  intro x hx
  by_cases hlt : r.parsed < r.dgram.len
  · obtain ⟨-, ⟨-, rfl⟩ | ⟨origin, r₁, y, -, h₁, hy, hy'⟩⟩ := msgTurn_cases hlt hx
    · exact ⟨rfl, rfl, rfl, rfl⟩
    have hheard : SameWire r.olsr r₁.olsr := heardFrom_wire origin r r₁ h₁
    obtain ⟨rfl, rfl⟩ | ⟨r₂, r₃, rfl, h₃, rfl⟩ := hy'
    · exact hheard
    have holsr := (olsrForward_frame h₃).1
    have hhandled := handleCase_wire alloc (olsrHandle_cases hy)
    show SameWire r.olsr r₃.olsr
    rw [holsr]
    exact hheard.trans hhandled
  rw [msgTurn, if_pos (not_lt.mp hlt)] at hx
  cases hx
  exact .refl _

end Wire

end Vde
