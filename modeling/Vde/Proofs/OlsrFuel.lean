import Vde.Olsr

/-!
# OLSR: more fuel

None of the functions of the protocol returns something else when it gets more fuel.
-/

namespace Vde

variable {n m : Nat}

section Walks

variable (h : OlsrHeap)

lemma ethentryLoop_below (vif : Option Nat) (hnm : n ≤ m) (p : Option Nat) :
    Below (ethentryLoop h vif n p) (ethentryLoop h vif m p) := by
  induction n generalizing m p with
  | zero => exact below_error _ _
  | succ n ih =>
    obtain ⟨k, rfl⟩ : ∃ k, m = k + 1 := ⟨m - 1, by omega⟩
    cases p with
    | none => exact .refl _
    | some cur =>
      apply Below.bind (.refl _)
      intro e
      split
      · exact .refl _
      · exact ih (by omega) _

lemma getNextHop_below (hnm : n ≤ m) (p : Option Nat) : Below (getNextHop h n p) (getNextHop h m p) := by
  induction n generalizing m p with
  | zero => exact below_error _ _
  | succ n ih =>
    obtain ⟨k, rfl⟩ : ∃ k, m = k + 1 := ⟨m - 1, by omega⟩
    cases p with
    | none => exact .refl _
    | some hop =>
      apply Below.bind (.refl _)
      intro e
      split
      · exact .refl _
      · exact ih (by omega) _

lemma getRouteByAddress_below (ip : BitVec 32) (hnm : n ≤ m) (p : Option Nat) :
    Below (getRouteByAddress h ip n p) (getRouteByAddress h ip m p) := by
  induction n generalizing m p with
  | zero => exact below_error _ _
  | succ n ih =>
    obtain ⟨k, rfl⟩ : ∃ k, m = k + 1 := ⟨m - 1, by omega⟩
    cases p with
    | none => exact .refl _
    | some lst =>
      apply Below.bind (.refl _)
      intro e
      split
      · exact .refl _
      apply Below.bind (ih (by omega) _)
      rintro (_ | found)
      · exact ih (by omega) _
      · exact .refl _

lemma findPrev_below (r : Nat) (hnm : n ≤ m) (prev p : Option Nat) :
    Below (findPrev h r n prev p) (findPrev h r m prev p) := by
  induction n generalizing m prev p with
  | zero => exact below_error _ _
  | succ n ih =>
    obtain ⟨k, rfl⟩ : ∃ k, m = k + 1 := ⟨m - 1, by omega⟩
    cases p with
    | none => exact .refl _
    | some cur =>
      simp only [findPrev]
      split
      · exact .refl _
      · exact Below.bind (.refl _) (fun e => ih (by omega) _ _)

end Walks

section Tree

variable (alloc : Nat → Bool)

lemma addToGateway_below (hnm : n ≤ m) (el g : Nat) (s : Olsr) :
    Below (addToGateway alloc n el g s) (addToGateway alloc m el g s) := by
  refine .bind (.refl _) (fun eg => .bind (.refl _) (fun s => .bind (.refl _) (fun s => ?_)))
  exact .bind (getNextHop_below _ hnm _) (fun _ => .refl _)

lemma olsrRouteAdd_below (hnm : n ≤ m) (el : Nat) (s : Olsr) :
    Below (olsrRouteAdd alloc n el s) (olsrRouteAdd alloc m el s) := by
  apply Below.bind (.refl _)
  intro e
  cases e.gateway with
  | some g => exact addToGateway_below alloc hnm el g _
  | none =>
    dsimp only
    split
    · exact .bind (ethentryLoop_below _ _ hnm _) (fun _ => .refl _)
    · exact .refl _

lemma delList_below (hnm : n ≤ m) (e : OlsrEntry) (s : Olsr) : Below (delList n e s) (delList m e s) := by
  unfold delList
  cases e.gateway with
  | some g => exact .refl _
  | none =>
    dsimp only
    split
    · exact ethentryLoop_below _ _ hnm _
    · exact .refl _

lemma del_below (hnm : n ≤ m) (r : Nat) (s : Olsr) :
    Below (olsrRouteDel n r s) (olsrRouteDel m r s) ∧ Below (delChildren n r s) (delChildren m r s) := by
  induction n generalizing m r s with
  | zero => exact ⟨below_error _ _, below_error _ _⟩
  | succ n ih =>
    obtain ⟨k, rfl⟩ : ∃ k, m = k + 1 := ⟨m - 1, by omega⟩
    have hk : n ≤ k := by omega
    constructor
    · refine .bind (.refl _) (fun e => .bind (delList_below hk _ _) (fun lst => ?_))
      apply Below.bind (findPrev_below _ _ hk _ _)
      rintro (_ | prev)
      · exact .refl _
      · exact .bind (.refl _) (fun s => (ih hk r s).2)
    apply Below.bind (.refl _)
    intro e
    cases e.children with
    | none => exact .refl _
    | some c =>
      refine .bind (ih hk c s).1 (fun s => .bind (.refl _) (fun e => .bind (.refl _) (fun s => ?_)))
      exact (ih hk r s).2

lemma reposition_below (hnm : n ≤ m) (origin : Nat) (s : Olsr) :
    Below (reposition alloc n origin s) (reposition alloc m origin s) := by
  refine .bind (.refl _) (fun eo => .bind (ethentryLoop_below _ _ hnm _) ?_)
  rintro (_ | ancestor)
  · exact .refl _
  dsimp only
  split
  · refine .bind (del_below hnm _ _).1 (fun s => .bind (.refl _) (fun s => ?_))
    exact olsrRouteAdd_below alloc hnm origin s
  · exact .refl _

end Tree

section Handlers

variable (alloc : Nat → Bool) (d : Dgram) (base : Nat)

lemma midTurn_mono (len : Int) (origin : Nat) (t : Nat × Olsr) :
    FuelMono (fun n => midTurn alloc d base len origin n t) := by
  intro n m hnm
  obtain ⟨parsed, s⟩ := t
  simp only [midTurn]
  split
  · exact .refl _
  refine .bind (.refl _) (fun address => .bind (getRouteByAddress_below _ _ hnm _) ?_)
  rintro (_ | e)
  · cases hm : s.malloc alloc with
    | mk p s =>
      cases p with
      | none => exact .refl _
      | some e =>
        refine .bind (.refl _) (fun eo => .bind (.refl _) (fun s => ?_))
        exact .bind (olsrRouteAdd_below alloc hnm e s) (fun _ => .refl _)
  refine .bind (.refl _) (fun ee => .bind (.refl _) (fun eo => ?_))
  split
  · refine .bind (del_below hnm _ _).1 (fun s => .bind (.refl _) (fun eo => .bind (.refl _) (fun s => ?_)))
    exact .bind (olsrRouteAdd_below alloc hnm e s) (fun _ => .refl _)
  · exact .refl _

lemma helloTurn_mono (len : Int) (origin : Nat) (t : Nat × Olsr) :
    FuelMono (fun n => helloTurn alloc d base len origin n t) := by
  intro n m hnm
  obtain ⟨parsed, s⟩ := t
  simp only [helloTurn]
  split
  · exact .refl _
  refine .bind (.refl _) (fun size => .bind (.refl _) (fun addr => .bind (getRouteByAddress_below _ _ hnm _) ?_))
  rintro (_ | e)
  · cases hm : s.malloc alloc with
    | mk p s =>
      cases p with
      | none => exact .refl _
      | some e =>
        refine .bind (.refl _) (fun eo => .bind (.refl _) (fun lq => .bind (.refl _) (fun nlq => ?_)))
        refine .bind (.refl _) (fun s => ?_)
        exact .bind (olsrRouteAdd_below alloc hnm e s) (fun _ => .refl _)
  refine .bind (.refl _) (fun ee => .bind (.refl _) (fun eo => ?_))
  split
  · refine .bind (del_below hnm _ _).1 (fun s => .bind (.refl _) (fun eo => .bind (.refl _) (fun s => ?_)))
    exact .bind (olsrRouteAdd_below alloc hnm e s) (fun _ => .refl _)
  · exact .refl _

lemma placeUnder_below (hnm : n ≤ m) (off e rt : Nat) (s : Olsr) :
    Below (placeUnder alloc d n off e rt s) (placeUnder alloc d m off e rt s) := by
  refine .bind (.refl _) (fun ee => .bind (.refl _) (fun lq => .bind (.refl _) (fun nlq => ?_)))
  exact .bind (.refl _) (fun s => olsrRouteAdd_below alloc hnm rt s)

lemma tcTurn_mono (size : Int) (e : Nat) (t : Nat × Olsr) : FuelMono (fun n => tcTurn alloc d base size e n t) := by
  intro n m hnm
  obtain ⟨parsed, s⟩ := t
  simp only [tcTurn]
  split
  · exact .refl _
  refine .bind (.refl _) (fun addr => .bind (getRouteByAddress_below _ _ hnm _) ?_)
  rintro (_ | rt)
  · cases hm : s.malloc alloc with
    | mk p s =>
      cases p with
      | none => exact .refl _
      | some rt =>
        refine .bind (.refl _) (fun s => ?_)
        exact .bind (placeUnder_below alloc d hnm _ _ _ _) (fun _ => .refl _)
  refine .bind (.refl _) (fun x => .bind (.refl _) (fun ee => ?_))
  split
  · exact .refl _
  refine .bind (.refl _) (fun moves => ?_)
  split
  · refine .bind (del_below hnm _ _).1 (fun s => ?_)
    exact .bind (placeUnder_below alloc d hnm _ _ _ _) (fun _ => .refl _)
  · exact .refl _

lemma reconsiderTopology_below (hnm : n ≤ m) (size : Int) (e : Nat) (s : Olsr) :
    Below (reconsiderTopology alloc d base n size e s) (reconsiderTopology alloc d base m size e s) := by
  apply Below.bind (.refl _)
  rintro ⟨s, _ | _⟩
  · exact .refl _
  · exact .bind (runLoop_below (tcTurn_mono alloc d base size e) hnm _) (fun _ => .refl _)

lemma recvMid_below (hnm : n ≤ m) (len : Int) (origin : Nat) (s : Olsr) :
    Below (recvMid alloc d base n len origin s) (recvMid alloc d base m len origin s) := by
  unfold recvMid
  split
  · exact .refl _
  · exact runLoop_below (midTurn_mono alloc d base len origin) hnm _

lemma recvHello_below (hnm : n ≤ m) (len : Int) (origin : Option Nat) (s : Olsr) :
    Below (recvHello alloc d base n len origin s) (recvHello alloc d base m len origin s) := by
  cases origin with
  | none => exact .refl _
  | some origin => exact runLoop_below (helloTurn_mono alloc d base len origin) hnm _

end Handlers

lemma olsrHandle_below (alloc : Nat → Bool) (hnm : n ≤ m) (origin : Nat) (r : OlsrRecv) :
    Below (olsrHandle alloc n origin r) (olsrHandle alloc m origin r) := by
  apply Below.bind (.refl _)
  intro type
  split
  · refine .bind (reposition_below alloc hnm _ _) (fun s => .bind (.refl _) (fun size => ?_))
    exact .bind (recvHello_below alloc _ _ hnm _ _ _) (fun _ => .refl _)
  split
  · refine .bind (.refl _) (fun size => ?_)
    exact .bind (recvMid_below alloc _ _ hnm _ _ _) (fun _ => .refl _)
  split
  · refine .bind (.refl _) (fun size => ?_)
    exact .bind (reconsiderTopology_below alloc _ _ hnm _ _ _) (fun _ => .refl _)
  · exact .refl _

lemma msgTurn_mono (alloc : Nat → Bool) (r : OlsrRecv) : FuelMono (fun n => msgTurn alloc n r) := by
  intro n m hnm
  simp only [msgTurn]
  split
  · exact .refl _
  refine .bind (.refl _) (fun orig => .bind (getRouteByAddress_below _ _ hnm _) ?_)
  rintro (_ | origin)
  · exact .refl _
  refine .bind (.refl _) (fun r => ?_)
  exact .bind (olsrHandle_below alloc hnm origin r) (fun _ => .refl _)

end Vde
