import Vde.Proofs.Routes

/-!
# Routes to the networks of the interfaces

An address that an interface gets brings a route with it, which all addresses of its network share. A
run in which memory for a new route is there, and in which no address of an interface is deleted, keeps
a route for every address; no other run does. `vder_iface_address_del` reads the entry that it has
freed, so that a router that deletes an address is not there any more.
-/

namespace Vde

def HasAddressIn (s : Router) (iface : Nat) (dest netmask : BitVec 32) : Prop :=
  ∃ b ∈ s.addressList iface, b.address ≠ dhcpPlaceholder ∧ b.address &&& netmask = dest

/-- Every address has a route with metric 1 to its network, through an interface with an address in
that network, and no such route leads to a network without addresses. -/
def ConnectedOk (s : Router) : Prop :=
  (∀ i, ∀ a ∈ s.addressList i, a.address ≠ dhcpPlaceholder →
    ∃ r ∈ s.routingTable, r.destAddr = a.address &&& a.netmask ∧ r.netmask = a.netmask ∧ r.metric = 1 ∧
      HasAddressIn s r.iface r.destAddr r.netmask) ∧
  ∀ r ∈ s.routingTable, r.metric = 1 → r.gateway = 0 → ∃ i, HasAddressIn s i r.destAddr r.netmask

def addressMachine : Machine (Option Router) AddressEvent :=
  { enabled := fun _ _ => True, step := fun r e => r.bind (addressStep · e) }

/-- A new address gets its route, or there is one already, and no address of an interface is deleted. -/
def KeepsNetworks (r : Option Router) (e : AddressEvent) : Prop :=
  ∀ s, r = some s → ¬DeletesAddress s e ∧ match e with
    | .add alloc allocRoute iface addr netmask =>
      alloc = true → (∀ cur ∈ s.addressList iface, cur.address ≠ addr) → addr ≠ dhcpPlaceholder →
        allocRoute = true ∨ HasKey s.routingTable (addr &&& netmask) netmask 1
    | .del _ _ => True

def withAddress (s : Router) (iface : Nat) (a : Ip4Address) : Nat → List Ip4Address :=
  fun i => if i = iface then a :: s.addressList iface else s.addressList i

variable {s : Router} {a : Ip4Address}

lemma mem_withAddress {iface i : Nat} {b : Ip4Address} :
    b ∈ withAddress s iface a i ↔ (i = iface ∧ b = a) ∨ b ∈ s.addressList i := by
  rw [withAddress]
  split
  · rename_i h
    subst h
    simp
  rename_i h
  simp [h]

lemma addressStep_add (s : Router) (alloc allocRoute : Bool) (iface : Nat) (addr netmask : BitVec 32) :
    (addressStep s (.add alloc allocRoute iface addr netmask) = some s ∧
      (alloc = false ∨ ∃ cur ∈ s.addressList iface, cur.address = addr)) ∨
    (addr = dhcpPlaceholder ∧ addressStep s (.add alloc allocRoute iface addr netmask) =
      some { s with addressList := withAddress s iface ⟨addr, netmask⟩ }) ∨
    (alloc = true ∧ (∀ cur ∈ s.addressList iface, cur.address ≠ addr) ∧ addr ≠ dhcpPlaceholder ∧
      addressStep s (.add alloc allocRoute iface addr netmask) = some
        { routingTable := (vderRouteAdd allocRoute addr netmask 0 1 (some iface) s.routingTable).2
          addressList := withAddress s iface ⟨addr, netmask⟩ }) := by
  simp only [addressStep, vderIfaceAddressAdd]
  by_cases halloc : alloc = false
  · rw [if_pos halloc]
    exact .inl ⟨rfl, .inl halloc⟩
  rw [if_neg halloc]
  by_cases hused : (s.addressList iface).any (fun cur => cur.address == addr) = true
  · rw [if_pos hused]
    exact .inl ⟨rfl, .inr (by simpa using hused)⟩
  have hfree : ∀ cur ∈ s.addressList iface, cur.address ≠ addr := by
    simpa using hused
  rw [Bool.not_eq_false] at halloc
  rw [if_neg hused]
  by_cases hdhcp : addr = dhcpPlaceholder
  · rw [if_pos hdhcp]
    exact .inr (.inl ⟨hdhcp, rfl⟩)
  rw [if_neg hdhcp]
  exact .inr (.inr ⟨halloc, hfree, hdhcp, rfl⟩)

def OwnAddress (s : Router) (r : Route) (a : Ip4Address) : Prop :=
  a ∈ s.addressList r.iface ∧ a.address ≠ dhcpPlaceholder ∧ a.netmask = r.netmask ∧
    a.address &&& a.netmask = r.destAddr

/-- The invariant: every route has an address of its own interface behind it, and every address has a
route. -/
structure ConnectedInv (s : Router) : Prop where
  routes : ∀ r ∈ s.routingTable, ∃ a, OwnAddress s r a
  cover : ∀ i, ∀ a ∈ s.addressList i, a.address ≠ dhcpPlaceholder →
    HasKey s.routingTable (a.address &&& a.netmask) a.netmask 1

lemma OwnAddress.hasAddressIn {r : Route} (h : OwnAddress s r a) : HasAddressIn s r.iface r.destAddr r.netmask := by
  obtain ⟨hmem, hreal, hnm, hdest⟩ := h
  rw [← hnm]
  exact ⟨a, hmem, hreal, hdest⟩

lemma ConnectedInv.ok (h : ConnectedInv s) : ConnectedOk s := by
  constructor
  · intro i a ha hreal
    obtain ⟨r, hr, hdest, hnm, hmetric⟩ := h.cover i a ha hreal
    obtain ⟨b, hb⟩ := h.routes r hr
    exact ⟨r, hr, hdest, hnm, hmetric, hb.hasAddressIn⟩
  intro r hr _ _
  obtain ⟨b, hb⟩ := h.routes r hr
  exact ⟨r.iface, hb.hasAddressIn⟩

lemma connectedInv_add (h : ConnectedInv s) {iface : Nat} {table : List Route}
    (htable : ∀ r ∈ table, r ∈ s.routingTable ∨ (r.iface = iface ∧ a.address ≠ dhcpPlaceholder ∧
      a.netmask = r.netmask ∧ a.address &&& a.netmask = r.destAddr))
    (hold : ∀ r ∈ s.routingTable, r ∈ table)
    (hnew : a.address ≠ dhcpPlaceholder → HasKey table (a.address &&& a.netmask) a.netmask 1) :
    ConnectedInv { routingTable := table, addressList := withAddress s iface a } := by
  refine ⟨fun r hr => ?_, fun i b hb hreal => ?_⟩
  · rcases htable r hr with hr | ⟨hiface, hreal, hnm, hdest⟩
    · obtain ⟨b, hb, hrest⟩ := h.routes r hr
      exact ⟨b, mem_withAddress.mpr (.inr hb), hrest⟩
    · exact ⟨a, mem_withAddress.mpr (.inl ⟨hiface, rfl⟩), hreal, hnm, hdest⟩
  rcases mem_withAddress.mp hb with ⟨-, rfl⟩ | hb
  · exact hnew hreal
  obtain ⟨r, hr, hkey⟩ := h.cover i b hb hreal
  exact ⟨r, hold r hr, hkey⟩

lemma not_connectedOk {i : Nat} (ha : a ∈ s.addressList i) (hreal : a.address ≠ dhcpPlaceholder)
    (hnone : ¬HasKey s.routingTable (a.address &&& a.netmask) a.netmask 1) : ¬ConnectedOk s := by
  rintro ⟨hroute, -⟩
  obtain ⟨r, hr, hdest, hnm, hmetric, -⟩ := hroute i a ha hreal
  exact hnone ⟨r, hr, hdest, hnm, hmetric⟩

lemma addressStep_inv (h : ConnectedInv s) {e : AddressEvent} (hkeep : KeepsNetworks (some s) e) :
    ∃ s', addressStep s e = some s' ∧ ConnectedInv s' := by
  obtain ⟨hdel, hroute⟩ := hkeep s rfl
  cases e with
  | del iface addr =>
    rcases addressStep_del s iface addr with ⟨hfound, -⟩ | ⟨-, heq⟩
    · exact absurd hfound hdel
    · exact ⟨s, heq, h⟩
  | add alloc allocRoute iface addr netmask =>
    rcases addressStep_add s alloc allocRoute iface addr netmask with
      ⟨heq, -⟩ | ⟨hdhcp, heq⟩ | ⟨halloc, hfree, hreal, heq⟩
    · exact ⟨s, heq, h⟩
    · exact ⟨_, heq, connectedInv_add h (fun r hr => .inl hr) (fun r hr => hr) (fun hreal => absurd hdhcp hreal)⟩
    refine ⟨_, heq, ?_⟩
    rcases vderRouteAdd_direct allocRoute addr netmask 0 1 iface s.routingTable with
      ⟨hwhy, hsame⟩ | ⟨-, -, hins⟩
    · have hkey : HasKey s.routingTable (addr &&& netmask) netmask 1 := by
        rcases hroute halloc hfree hreal with hmem | hkey
        · rcases hwhy with hnomem | hkey
          · exact absurd hmem (by simp [hnomem])
          · exact hkey
        · exact hkey
      rw [hsame]
      exact connectedInv_add h (fun r hr => .inl hr) (fun r hr => hr) (fun _ => hkey)
    rw [hins]
    refine connectedInv_add h ?_ (fun r hr => mem_insertRoute.mpr (.inr hr))
      (fun _ => ⟨_, mem_insertRoute.mpr (.inl rfl), rfl, rfl, rfl⟩)
    intro r hr
    rcases mem_insertRoute.mp hr with rfl | hr
    · exact .inr ⟨rfl, hreal, rfl, rfl⟩
    · exact .inl hr

lemma addressStep_bad {s' : Router} {e : AddressEvent} (hbad : ¬KeepsNetworks (some s) e)
    (hstep : addressStep s e = some s') : ¬ConnectedOk s' := by
  cases e with
  | del iface addr =>
    rcases addressStep_del s iface addr with ⟨-, heq⟩ | ⟨hfree, -⟩
    · cases heq.symm.trans hstep
    · exact absurd (fun t ht => by cases ht; exact ⟨hfree, trivial⟩) hbad
  | add alloc allocRoute iface addr netmask =>
    have hlost : alloc = true ∧ (∀ cur ∈ s.addressList iface, cur.address ≠ addr) ∧ addr ≠ dhcpPlaceholder ∧
        ¬allocRoute = true ∧ ¬HasKey s.routingTable (addr &&& netmask) netmask 1 := by
      by_contra hgood
      refine hbad fun t ht => ?_
      cases ht
      refine ⟨id, fun halloc hfree hreal => ?_⟩
      by_contra hnone
      exact hgood ⟨halloc, hfree, hreal, not_or.mp hnone⟩
    obtain ⟨halloc, hfree, hreal, hnomem, hkey⟩ := hlost
    rcases addressStep_add s alloc allocRoute iface addr netmask with
      ⟨-, hnomem' | ⟨cur, hcur, haddr⟩⟩ | ⟨hdhcp, -⟩ | ⟨-, -, -, heq⟩
    · exact absurd halloc (by simp [hnomem'])
    · exact absurd haddr (hfree cur hcur)
    · exact absurd hdhcp hreal
    · cases heq.symm.trans hstep
      rcases vderRouteAdd_direct allocRoute addr netmask 0 1 iface s.routingTable with
        ⟨-, hsame⟩ | ⟨hmem, -⟩
      · refine not_connectedOk (a := ⟨addr, netmask⟩) (i := iface) (mem_withAddress.mpr (.inl ⟨rfl, rfl⟩)) hreal ?_
        rw [hsame]
        exact hkey
      · exact absurd hmem hnomem

/-- The router lives and the addresses have their routes in all states of a run exactly if all its calls
meet the condition. -/
theorem connected_routes_iff (es : List AddressEvent) :
    addressMachine.Always (fun r => ∃ s, r = some s ∧ ConnectedOk s) (some routerStart) es ↔
    addressMachine.Along KeepsNetworks (some routerStart) es := by
  refine Machine.always_iff_along (fun r => ∃ s, r = some s ∧ ConnectedInv s) ?_ ?_ ?_ ?_ es
    (Machine.Along.of_forall (fun _ _ => trivial) _ _)
  · rintro _ ⟨s, rfl, h⟩
    exact ⟨s, rfl, h.ok⟩
  · rintro _ e ⟨s, rfl, h⟩ _ hkeep
    exact addressStep_inv h hkeep
  · rintro _ e ⟨s, rfl, -⟩ _ hbad ⟨s', hs', hok⟩
    exact addressStep_bad hbad hs' hok
  · exact ⟨routerStart, rfl, ⟨by simp [routerStart], by simp [routerStart]⟩⟩

/-- An address that comes and goes takes the router with it. -/
theorem deleted_address_faults :
    ¬addressMachine.Always (fun r => ∃ s, r = some s ∧ ConnectedOk s) (some routerStart)
      [.add true true 0 0x0100000a 0x00ffffff, .del 0 0x0100000a] := by
  intro h
  obtain ⟨s, hs, -⟩ := h.last
  cases hs

end Vde
