import Vde.Router

/-!
# The routing table

`vder_route_add` keeps the table ordered by netmask, but puts the greater metric first, so the
first match has the longest netmask and the greatest metric. Deleting compares the address as it
is given, while adding keeps only its network part. A router that deletes an address of an interface
reads freed memory; its state is `none` from then on.
-/

namespace Vde

open List

def Route.Matches (r : Route) (address : BitVec 32) : Prop := address &&& r.netmask = r.destAddr

/-- `vder_get_route` finds a route exactly if one matches, and then one with the longest netmask
and, for that netmask, the lowest metric. -/
def GetRouteOk (table : List Route) (address : BitVec 32) : Prop :=
  match vderGetRoute table address with
  | none => ∀ r ∈ table, ¬r.Matches address
  | some r => r ∈ table ∧ r.Matches address ∧
      (∀ r' ∈ table, r'.Matches address → masklen r'.netmask ≤ masklen r.netmask) ∧
      ∀ r' ∈ table, r'.Matches address → r'.netmask = r.netmask → r.metric ≤ r'.metric

def BestHasOneMetric (table : List Route) (address : BitVec 32) : Prop :=
  ∀ r ∈ table, ∀ r' ∈ table, r.Matches address → r'.Matches address → r.netmask = r'.netmask →
    (∀ r'' ∈ table, r''.Matches address → masklen r''.netmask ≤ masklen r.netmask) →
    r.metric = r'.metric

def Offers (s : Router) (e : RouteEvent) (address netmask : BitVec 32) (metric : BitVec 16) : Prop :=
  match e with
  | .add _ a n _ m _ => address = a ∧ netmask = n ∧ metric = m
  | .address (.add _ _ iface a n) =>
    a ≠ dhcpPlaceholder ∧ (∀ cur ∈ s.addressList iface, cur.address ≠ a) ∧
      address = a ∧ netmask = n ∧ metric = 1
  | _ => False

/-- The interface has the address that the call deletes. -/
def DeletesAddress (s : Router) : AddressEvent → Prop
  | .del iface addr => ∃ cur ∈ s.addressList iface, cur.address = addr
  | _ => False

def routeMachine : Machine (Option Router) RouteEvent :=
  { enabled := fun r e => ∀ s, r = some s → ∀ address netmask metric, Offers s e address netmask metric →
      IsNetmask netmask
    step := fun r e => r.bind (routeStep · e) }

/-- The router has not died, and `vder_get_route` finds the best route for the address. -/
def LookupOk (r : Option Router) (address : BitVec 32) : Prop :=
  ∃ s, r = some s ∧ GetRouteOk s.routingTable address

def KeepsAddresses (r : Option Router) (e : RouteEvent) : Prop :=
  ∀ s, r = some s → ∀ call, e = .address call → ¬DeletesAddress s call

def KeepsOneMetric (r : Option Router) (e : RouteEvent) : Prop :=
  ∀ s, r = some s → ∀ address netmask metric, Offers s e address netmask metric →
    ∀ ro ∈ s.routingTable, ro.destAddr = address &&& netmask → ro.netmask = netmask → ro.metric = metric

lemma covers_iff (r : Route) (address : BitVec 32) : r.covers address = true ↔ r.Matches address := by
  rw [Route.covers, Route.Matches, ← ntohl_and, beq_iff_eq, ntohl_inj]

/-- The order of the table: longer netmasks first, and for the same netmask greater metrics
first. -/
def RouteOrder (a b : Route) : Prop :=
  ntohl b.netmask < ntohl a.netmask ∨ (a.netmask = b.netmask ∧ b.metric ≤ a.metric)

lemma RouteOrder.netmask_le {a b : Route} (h : RouteOrder a b) : ntohl b.netmask ≤ ntohl a.netmask := by
  rcases h with hlt | ⟨heq, -⟩
  · exact BitVec.le_of_lt hlt
  rw [heq]
  exact BitVec.le_refl _

lemma goesBefore_iff (ro cur : Route) : ro.goesBefore cur = true ↔
    ntohl cur.netmask < ntohl ro.netmask ∨ (cur.netmask = ro.netmask ∧ cur.metric < ro.metric) := by
  simp [Route.goesBefore]

variable {ro : Route}

lemma routeOrder_of_goesBefore {cur : Route} (h : ro.goesBefore cur = true) : RouteOrder ro cur := by
  rcases (goesBefore_iff ro cur).mp h with hlt | ⟨heq, hlt⟩
  · exact .inl hlt
  · exact .inr ⟨heq.symm, BitVec.le_of_lt hlt⟩

lemma routeOrder_of_not_goesBefore {cur : Route} (h : ¬ro.goesBefore cur = true) : RouteOrder cur ro := by
  rw [goesBefore_iff, not_or, not_and] at h
  obtain ⟨hnm, hmetric⟩ := h
  by_cases heq : cur.netmask = ro.netmask
  · exact .inr ⟨heq, BitVec.not_lt.mp (hmetric heq)⟩
  have hne : ntohl cur.netmask ≠ ntohl ro.netmask := fun hsame => heq (ntohl_inj.mp hsame)
  left
  bv_omega

lemma RouteOrder.trans {a b c : Route} (h : RouteOrder a b) (h' : RouteOrder b c) : RouteOrder a c := by
  rcases h with hlt | ⟨heq, hle⟩
  · have hle := h'.netmask_le
    left
    bv_omega
  rcases h' with hlt' | ⟨heq', hle'⟩
  · exact .inl (by rw [heq]; exact hlt')
  · exact .inr ⟨heq.trans heq', BitVec.le_trans hle' hle⟩

variable {table : List Route}

lemma mem_insertRoute {r : Route} : r ∈ insertRoute ro table ↔ r = ro ∨ r ∈ table := by
  induction table with
  | nil => simp [insertRoute]
  | cons cur rest ih =>
    rw [insertRoute]
    split
    · simp
    simp only [mem_cons, ih]
    tauto

lemma insertRoute_sorted (h : table.Pairwise RouteOrder) : (insertRoute ro table).Pairwise RouteOrder := by
  induction table with
  | nil => simp [insertRoute]
  | cons cur rest ih =>
    obtain ⟨hcur, hrest⟩ := pairwise_cons.mp h
    rw [insertRoute]
    split
    · rename_i hbefore
      have hro := routeOrder_of_goesBefore hbefore
      refine pairwise_cons.mpr ⟨?_, h⟩
      intro r hr
      rcases mem_cons.mp hr with rfl | hr
      · exact hro
      · exact hro.trans (hcur r hr)
    rename_i hbefore
    refine pairwise_cons.mpr ⟨?_, ih hrest⟩
    intro r hr
    rcases mem_insertRoute.mp hr with rfl | hr
    · exact routeOrder_of_not_goesBefore hbefore
    · exact hcur r hr

def newRoute (address netmask gateway : BitVec 32) (metric : BitVec 16) (iface : Nat) : Route :=
  { destAddr := address &&& netmask, netmask := netmask, gateway := gateway, metric := metric
    iface := iface }

def routeIface (table : List Route) (gateway : BitVec 32) (dst : Option Nat) : Option Nat :=
  dst.or ((vderGetRoute table gateway).map Route.iface)

def HasKey (table : List Route) (dest netmask : BitVec 32) (metric : BitVec 16) : Prop :=
  ∃ r ∈ table, r.destAddr = dest ∧ r.netmask = netmask ∧ r.metric = metric

lemma any_sameKey (table : List Route) (address netmask gateway : BitVec 32) (metric : BitVec 16) (iface : Nat) :
    table.any (fun cur => cur.sameKey (newRoute address netmask gateway metric iface)) = true ↔
    HasKey table (address &&& netmask) netmask metric := by
  simp [HasKey, Route.sameKey, newRoute, and_assoc]

lemma vderRouteAdd_cases (address netmask gateway : BitVec 32) (metric : BitVec 16) (dst : Option Nat)
    (table : List Route) :
    (routeIface table gateway dst = none ∧
      vderRouteAdd true address netmask gateway metric dst table = (⟨-1, some .ehostunreach⟩, table)) ∨
    (HasKey table (address &&& netmask) netmask metric ∧
      vderRouteAdd true address netmask gateway metric dst table = (⟨-1, some .eexist⟩, table)) ∨
    (∃ iface, routeIface table gateway dst = some iface ∧
      ¬HasKey table (address &&& netmask) netmask metric ∧
      vderRouteAdd true address netmask gateway metric dst table =
        (⟨if table = [] then -1 else 0, none⟩,
          insertRoute (newRoute address netmask gateway metric iface) table)) := by
  have hdest : ntohl (ntohl address &&& ntohl netmask) = address &&& netmask := by
    rw [← ntohl_and, ntohl_ntohl]
  have hadd : vderRouteAdd true address netmask gateway metric dst table =
      (routeIface table gateway dst).elim (⟨-1, some .ehostunreach⟩, table) (fun iface =>
        if table.any (fun cur => cur.sameKey (newRoute address netmask gateway metric iface)) then
          (⟨-1, some .eexist⟩, table)
        else if table.isEmpty then (⟨-1, none⟩, [newRoute address netmask gateway metric iface])
        else (⟨0, none⟩, insertRoute (newRoute address netmask gateway metric iface) table)) := by
    simp only [vderRouteAdd, Bool.true_eq_false, if_false, hdest]
    rw [← routeIface]
    cases routeIface table gateway dst with
    | none => rfl
    | some iface => rfl
  cases hiface : routeIface table gateway dst with
  | none =>
    rw [hiface] at hadd
    exact .inl ⟨rfl, hadd⟩
  | some iface =>
    rw [hiface, Option.elim_some] at hadd
    have hkey := any_sameKey table address netmask gateway metric iface
    by_cases hany : table.any (fun cur => cur.sameKey (newRoute address netmask gateway metric iface)) = true
    · rw [if_pos hany] at hadd
      exact .inr (.inl ⟨hkey.mp hany, hadd⟩)
    rw [if_neg hany] at hadd
    refine .inr (.inr ⟨iface, rfl, fun h => hany (hkey.mpr h), ?_⟩)
    cases table with
    | nil => exact hadd
    | cons cur rest => exact hadd

lemma vderRouteAdd_table (alloc : Bool) (address netmask gateway : BitVec 32) (metric : BitVec 16)
    (dst : Option Nat) (table : List Route) : (vderRouteAdd alloc address netmask gateway metric dst table).2 =
    table ∨ ∃ iface, ¬HasKey table (address &&& netmask) netmask metric ∧
    (vderRouteAdd alloc address netmask gateway metric dst table).2 =
    insertRoute (newRoute address netmask gateway metric iface) table := by
  cases alloc with
  | false => exact .inl rfl
  | true =>
    rcases vderRouteAdd_cases address netmask gateway metric dst table with
      ⟨-, heq⟩ | ⟨-, heq⟩ | ⟨iface, -, hkey, heq⟩
    · exact .inl (by rw [heq])
    · exact .inl (by rw [heq])
    · exact .inr ⟨iface, hkey, by rw [heq]⟩

lemma vderRouteAdd_direct (alloc : Bool) (address netmask gateway : BitVec 32) (metric : BitVec 16)
    (iface : Nat) (table : List Route) :
    ((alloc = false ∨ HasKey table (address &&& netmask) netmask metric) ∧
      (vderRouteAdd alloc address netmask gateway metric (some iface) table).2 = table) ∨
    (alloc = true ∧ ¬HasKey table (address &&& netmask) netmask metric ∧
      (vderRouteAdd alloc address netmask gateway metric (some iface) table).2 =
        insertRoute (newRoute address netmask gateway metric iface) table) := by
  cases alloc with
  | false => exact .inl ⟨.inl rfl, rfl⟩
  | true =>
    rcases vderRouteAdd_cases address netmask gateway metric (some iface) table with
      ⟨hnone, -⟩ | ⟨hkey, heq⟩ | ⟨iface', hsome, hkey, heq⟩
    · simp [routeIface] at hnone
    · exact .inl ⟨.inr hkey, by rw [heq]⟩
    have hiface : iface = iface' := by simpa [routeIface] using hsome
    subst hiface
    exact .inr ⟨rfl, hkey, by rw [heq]⟩

lemma vderRouteDel_sublist (address netmask : BitVec 32) (metric : Int) (table : List Route) :
    (vderRouteDel address netmask metric table).2.Sublist table := by
  unfold vderRouteDel
  split
  · exact eraseP_sublist
  · exact Sublist.refl _

lemma addressDelLoop_free {addr : BitVec 32} {list : List Ip4Address} (h : ∀ cur ∈ list, cur.address ≠ addr) :
    addressDelLoop addr list = some (0, list) := by
  induction list with
  | nil => rfl
  | cons cur rest ih =>
    rw [addressDelLoop, if_neg (h cur mem_cons_self), ih (fun a ha => h a (mem_cons_of_mem cur ha))]
    rfl

lemma addressDelLoop_found {addr : BitVec 32} {list : List Ip4Address} (h : ∃ cur ∈ list, cur.address = addr) :
    addressDelLoop addr list = none := by
  obtain ⟨found, hmem, haddr⟩ := h
  induction list with
  | nil => cases hmem
  | cons cur rest ih =>
    rw [addressDelLoop]
    split
    · rfl
    rename_i hne
    rcases mem_cons.mp hmem with rfl | hrest
    · exact absurd haddr hne
    rw [ih hrest]
    rfl

lemma addressStep_del (s : Router) (iface : Nat) (addr : BitVec 32) :
    (DeletesAddress s (.del iface addr) ∧ addressStep s (.del iface addr) = none) ∨
    (¬DeletesAddress s (.del iface addr) ∧ addressStep s (.del iface addr) = some s) := by
  by_cases hfound : DeletesAddress s (.del iface addr)
  · refine .inl ⟨hfound, ?_⟩
    rw [addressStep, vderIfaceAddressDel, addressDelLoop_found hfound]
    rfl
  refine .inr ⟨hfound, ?_⟩
  have hlists : (fun i => if i = iface then s.addressList iface else s.addressList i) = s.addressList := by
    funext i
    split
    · rename_i h
      rw [h]
    · rfl
  rw [addressStep, vderIfaceAddressDel, addressDelLoop_free (fun cur hcur haddr => hfound ⟨cur, hcur, haddr⟩)]
  simp only [Option.map_some, if_true, hlists]

lemma routeStep_alive (s : Router) (e : RouteEvent) :
    (routeStep s e).isSome ↔ ∀ call, e = .address call → ¬DeletesAddress s call := by
  cases e with
  | add => exact iff_of_true rfl nofun
  | del => exact iff_of_true rfl nofun
  | address call =>
    cases call with
    | add => exact iff_of_true rfl (fun _ h => by cases h; exact id)
    | del iface addr =>
      rw [routeStep]
      rcases addressStep_del s iface addr with ⟨hfound, heq⟩ | ⟨hfree, heq⟩
      · exact iff_of_false (by rw [heq]; exact Bool.false_ne_true) (fun h => h _ rfl hfound)
      · exact iff_of_true (by rw [heq]; rfl) (fun _ h => by cases h; exact hfree)

variable {s s' : Router} {e : RouteEvent}

lemma routeStep_cases (h : routeStep s e = some s') : s'.routingTable.Sublist s.routingTable ∨
    ∃ address netmask gateway metric iface, Offers s e address netmask metric ∧ s'.routingTable =
    insertRoute (newRoute address netmask gateway metric iface) s.routingTable := by
  cases e with
  | add alloc address netmask gateway metric dst =>
    cases h
    rcases vderRouteAdd_table alloc address netmask gateway metric dst s.routingTable with
      heq | ⟨iface, -, heq⟩
    · refine .inl ?_
      rw [heq]
    · exact .inr ⟨address, netmask, gateway, metric, iface, ⟨rfl, rfl, rfl⟩, heq⟩
  | del address netmask metric =>
    cases h
    exact .inl (vderRouteDel_sublist address netmask metric _)
  | address e =>
    cases e with
    | add alloc allocRoute iface addr netmask =>
      cases h
      rw [vderIfaceAddressAdd]
      by_cases halloc : alloc = false
      · rw [if_pos halloc]
        exact .inl (Sublist.refl _)
      rw [if_neg halloc]
      by_cases hused : (s.addressList iface).any (fun cur => cur.address == addr) = true
      · rw [if_pos hused]
        exact .inl (Sublist.refl _)
      rw [if_neg hused]
      by_cases hdhcp : addr = dhcpPlaceholder
      · simp only [if_pos hdhcp]
        exact .inl (Sublist.refl _)
      simp only [if_neg hdhcp]
      have hfree : ∀ cur ∈ s.addressList iface, cur.address ≠ addr := by
        simpa using hused
      rcases vderRouteAdd_table allocRoute addr netmask 0 1 (some iface) s.routingTable with
        heq | ⟨iface', -, heq⟩
      · refine .inl ?_
        rw [heq]
      · exact .inr ⟨addr, netmask, 0, 1, iface', ⟨hdhcp, hfree, rfl, rfl, rfl⟩, heq⟩
    | del iface addr =>
      rw [routeStep] at h
      rcases addressStep_del s iface addr with ⟨-, heq⟩ | ⟨-, heq⟩
      · cases heq.symm.trans h
      cases heq.symm.trans h
      exact .inl (Sublist.refl _)

structure RoutesOk (table : List Route) : Prop where
  sorted : table.Pairwise RouteOrder
  netmasks : ∀ r ∈ table, IsNetmask r.netmask

lemma routeStep_ok (h : RoutesOk s.routingTable) (hstep : routeStep s e = some s')
    (hen : routeMachine.enabled (some s) e) : RoutesOk s'.routingTable := by
  rcases routeStep_cases hstep with hsub | ⟨address, netmask, gateway, metric, iface, hoffer, heq⟩
  · exact ⟨h.sorted.sublist hsub, fun r hr => h.netmasks r (hsub.subset hr)⟩
  rw [heq]
  refine ⟨insertRoute_sorted h.sorted, fun r hr => ?_⟩
  rcases mem_insertRoute.mp hr with rfl | hr
  · exact hen s rfl address netmask metric hoffer
  · exact h.netmasks r hr

lemma vderGetRoute_first (h : table.Pairwise RouteOrder) {address : BitVec 32} {r : Route}
    (hget : vderGetRoute table address = some r) :
    r ∈ table ∧ r.Matches address ∧ ∀ r' ∈ table, r'.Matches address → r' = r ∨ RouteOrder r r' := by
  obtain ⟨hcovers, before, behind, rfl, hbefore⟩ := find?_eq_some_iff_append.mp hget
  refine ⟨by simp, (covers_iff r address).mp hcovers, ?_⟩
  intro r' hr' hmatch
  rcases mem_append.mp hr' with hmem | hmem
  · have hnot := hbefore r' hmem
    rw [(covers_iff r' address).mpr hmatch] at hnot
    exact absurd hnot (by simp)
  rcases mem_cons.mp hmem with rfl | hmem
  · exact .inl rfl
  have hpair := (pairwise_append.mp h).2.1
  exact .inr ((pairwise_cons.mp hpair).1 r' hmem)

lemma getRouteOk_iff (h : RoutesOk table) (address : BitVec 32) :
    GetRouteOk table address ↔ BestHasOneMetric table address := by
  unfold GetRouteOk
  cases hget : vderGetRoute table address with
  | none =>
    have hnone : ∀ r ∈ table, ¬r.Matches address := by
      intro r hr hmatch
      have hnot := find?_eq_none.mp hget r hr
      exact hnot ((covers_iff r address).mpr hmatch)
    exact ⟨fun _ r hr _ _ hmatch => absurd hmatch (hnone r hr), fun _ => hnone⟩
  | some r =>
    obtain ⟨hr, hmatch, hfirst⟩ := vderGetRoute_first h.sorted hget
    have hlongest : ∀ r' ∈ table, r'.Matches address → masklen r'.netmask ≤ masklen r.netmask := by
      intro r' hr' hmatch'
      rcases hfirst r' hr' hmatch' with rfl | horder
      · exact Nat.le_refl _
      · exact (h.netmasks r' hr').masklen_le (h.netmasks r hr) horder.netmask_le
    have hgreatest : ∀ r' ∈ table, r'.Matches address → r'.netmask = r.netmask → r'.metric ≤ r.metric := by
      intro r' hr' hmatch' hnm
      rcases hfirst r' hr' hmatch' with rfl | hlt | ⟨-, hle⟩
      · exact BitVec.le_refl _
      · rw [hnm] at hlt
        exact absurd hlt (BitVec.lt_irrefl _)
      · exact hle
    constructor
    · rintro ⟨-, -, -, hlowest⟩ a ha b hb hma hmb hnm hbest
      have hlen : masklen a.netmask = masklen r.netmask :=
        Nat.le_antisymm (hlongest a ha hma) (hbest r hr hmatch)
      have hnma : a.netmask = r.netmask := (h.netmasks a ha).eq_of_masklen (h.netmasks r hr) hlen
      have hnmb : b.netmask = r.netmask := hnm.symm.trans hnma
      have hra := BitVec.le_antisymm (hlowest a ha hma hnma) (hgreatest a ha hma hnma)
      have hrb := BitVec.le_antisymm (hlowest b hb hmb hnmb) (hgreatest b hb hmb hnmb)
      exact hra.symm.trans hrb
    intro hone
    refine ⟨hr, hmatch, hlongest, fun r' hr' hmatch' hnm => ?_⟩
    rw [hone r hr r' hr' hmatch hmatch' hnm.symm hlongest]
    exact BitVec.le_refl _

def OneMetric (table : List Route) : Prop :=
  ∀ r ∈ table, ∀ r' ∈ table, r.destAddr = r'.destAddr → r.netmask = r'.netmask → r.metric = r'.metric

lemma OneMetric.best (h : OneMetric table) (address : BitVec 32) : BestHasOneMetric table address := by
  intro r hr r' hr' hmatch hmatch' hnm _
  apply h r hr r' hr' _ hnm
  rw [← hmatch, ← hmatch', hnm]

lemma routeStep_oneMetric (h : OneMetric s.routingTable)
    (hstep : routeStep s e = some s') (hkeep : KeepsOneMetric (some s) e) : OneMetric s'.routingTable := by
  rcases routeStep_cases hstep with hsub | ⟨address, netmask, gateway, metric, iface, hoffer, heq⟩
  · exact fun r hr r' hr' => h r (hsub.subset hr) r' (hsub.subset hr')
  rw [heq]
  intro r hr r' hr' hdest hnm
  have hnew := hkeep s rfl address netmask metric hoffer
  rcases mem_insertRoute.mp hr with rfl | hr
  · rcases mem_insertRoute.mp hr' with rfl | hr'
    · rfl
    · exact (hnew r' hr' hdest.symm hnm.symm).symm
  rcases mem_insertRoute.mp hr' with rfl | hr'
  · exact hnew r hr hdest hnm
  · exact h r hr r' hr' hdest hnm

lemma lookupOk_iff {r : Option Router} (h : ∀ s, r = some s → RoutesOk s.routingTable) (address : BitVec 32) :
    LookupOk r address ↔ ∃ s, r = some s ∧ BestHasOneMetric s.routingTable address :=
  exists_congr fun s => and_congr_right fun hs => getRouteOk_iff (h s hs) address

lemma routeMachine_isSome_iff {r : Option Router} (h : r.isSome) :
    (routeMachine.step r e).isSome ↔ KeepsAddresses r e := by
  obtain ⟨s, rfl⟩ := Option.isSome_iff_exists.mp h
  refine (routeStep_alive s e).trans ⟨fun hkeep s' hs' => ?_, fun hkeep => hkeep s rfl⟩
  cases hs'
  exact hkeep

/-- After any calls with contiguous netmasks the lookup is right for an address exactly if the router lives and the best
routes of the address have one metric. The router lives exactly as long as no address of an interface is deleted, and if
no network gets a second metric either, the lookup is right for all addresses. -/
theorem routes_best_match (es : List RouteEvent)
    (hes : routeMachine.Along routeMachine.enabled (some routerStart) es) :
    routeMachine.Always (fun r => ∀ address,
        LookupOk r address ↔ ∃ s, r = some s ∧ BestHasOneMetric s.routingTable address) (some routerStart) es ∧
      (routeMachine.Always (fun r => r.isSome) (some routerStart) es ↔
        routeMachine.Along KeepsAddresses (some routerStart) es) ∧
      (routeMachine.Along (fun r e => KeepsAddresses r e ∧ KeepsOneMetric r e) (some routerStart) es →
        routeMachine.Always (fun r => ∀ address, LookupOk r address) (some routerStart) es) := by
  have hstart : RoutesOk routerStart.routingTable := ⟨List.Pairwise.nil, by simp [routerStart]⟩
  refine ⟨?_, ?_, fun hkeep => ?_⟩
  · refine hes.always (fun r => ∀ s, r = some s → RoutesOk s.routingTable) (fun r h => lookupOk_iff h) ?_
      (fun s hs => by cases hs; exact hstart)
    intro r e h hen s' hs'
    obtain ⟨s, rfl, hstep⟩ := Option.bind_eq_some_iff.mp hs'
    exact routeStep_ok (h s rfl) hstep hen
  · exact Machine.always_iff_along (fun r => r.isSome) (fun _ h => h)
      (fun _ _ h _ hok => (routeMachine_isSome_iff h).mpr hok)
      (fun _ _ h _ hbad halive => hbad ((routeMachine_isSome_iff h).mp halive)) rfl es hes
  refine (hes.and hkeep).always (fun r => ∃ s, r = some s ∧ RoutesOk s.routingTable ∧ OneMetric s.routingTable) ?_ ?_
    ⟨routerStart, rfl, hstart, by simp [OneMetric, routerStart]⟩
  · rintro _ ⟨s, rfl, h, hone⟩ address
    exact ⟨s, rfl, (getRouteOk_iff h address).mpr (hone.best address)⟩
  rintro _ e ⟨s, rfl, h, hone⟩ ⟨hen, halive, hkeep⟩
  obtain ⟨s', hs'⟩ := Option.isSome_iff_exists.mp ((routeMachine_isSome_iff rfl).mpr halive)
  exact ⟨s', hs', routeStep_ok h hs' hen, routeStep_oneMetric hone hs' hkeep⟩

/-- An address, a default route, and a call for an address that the interface does not have. -/
def defaultCalls : List RouteEvent :=
  [.address (.add true true 0 0x0100000a 0x00ffffff), .add true 0 0 0xfe00000a 1 none,
    .address (.del 0 0x0200000a)]

theorem routes_best_match_default :
    routeMachine.Always (fun r => ∀ address,
        LookupOk r address ↔ ∃ s, r = some s ∧ BestHasOneMetric s.routingTable address) (some routerStart) defaultCalls ∧
      (routeMachine.Always (fun r => r.isSome) (some routerStart) defaultCalls ↔
        routeMachine.Along KeepsAddresses (some routerStart) defaultCalls) ∧
      (routeMachine.Along (fun r e => KeepsAddresses r e ∧ KeepsOneMetric r e) (some routerStart) defaultCalls →
        routeMachine.Always (fun r => ∀ address, LookupOk r address) (some routerStart) defaultCalls) := by
  refine routes_best_match _ ⟨?_, ?_, fun _ _ _ _ _ h => absurd h id, trivial⟩
  · rintro _ _ address netmask metric ⟨-, -, -, rfl, -⟩
    exact ⟨24, by decide, by decide⟩
  rintro _ _ address netmask metric ⟨-, rfl, -⟩
  exact ⟨0, by decide, by decide⟩

theorem routes_greater_metric_first :
    routeMachine.Along routeMachine.enabled (some routerStart)
        [.add true 0x0000000a 0x00ffffff 0 1 (some 0), .add true 0x0000000a 0x00ffffff 0 2 (some 1)] ∧
      ¬routeMachine.Always (fun r => ∀ address, LookupOk r address) (some routerStart)
        [.add true 0x0000000a 0x00ffffff 0 1 (some 0), .add true 0x0000000a 0x00ffffff 0 2 (some 1)] := by
  constructor
  · refine ⟨?_, ?_, trivial⟩ <;>
    · rintro _ _ address netmask metric ⟨-, rfl, -⟩
      exact ⟨24, by decide, by decide⟩
  intro h
  obtain ⟨s, hs, hok⟩ := h.last 0x0500000a
  cases hs
  obtain ⟨-, -, -, hlowest⟩ := hok
  have hle := hlowest ⟨0x0000000a, 0x00ffffff, 0, 1, 0⟩ (by decide) (show _ = _ by decide) rfl
  exact absurd hle (by decide)

def Inserted (address netmask gateway : BitVec 32) (metric : BitVec 16) (table table' : List Route) : Prop :=
  ∃ before behind iface, table = before ++ behind ∧
    table' = before ++ newRoute address netmask gateway metric iface :: behind

/-- `vder_route_add` returns 0 exactly if it inserts the route and changes nothing otherwise, and
`vder_route_del` with the same arguments takes an inserted route away again. The metric is an
`int` of the caller, stored in 16 bits by `vder_route_add`. -/
def AddDelOk (address netmask gateway : BitVec 32) (metric : Int) (dst : Option Nat) (table : List Route) :
    Prop :=
  ((vderRouteAdd true address netmask gateway (BitVec.ofInt 16 metric) dst table).1.ret = 0 ↔
    Inserted address netmask gateway (BitVec.ofInt 16 metric) table
      (vderRouteAdd true address netmask gateway (BitVec.ofInt 16 metric) dst table).2) ∧
  (¬Inserted address netmask gateway (BitVec.ofInt 16 metric) table
      (vderRouteAdd true address netmask gateway (BitVec.ofInt 16 metric) dst table).2 →
    (vderRouteAdd true address netmask gateway (BitVec.ofInt 16 metric) dst table).2 = table) ∧
  (Inserted address netmask gateway (BitVec.ofInt 16 metric) table
      (vderRouteAdd true address netmask gateway (BitVec.ofInt 16 metric) dst table).2 →
    vderRouteDel address netmask metric
        (vderRouteAdd true address netmask gateway (BitVec.ofInt 16 metric) dst table).2 =
      (⟨0, none⟩, table))

lemma inserted_insertRoute (address netmask gateway : BitVec 32) (metric : BitVec 16) (iface : Nat)
    (table : List Route) : Inserted address netmask gateway metric table
      (insertRoute (newRoute address netmask gateway metric iface) table) := by
  induction table with
  | nil => exact ⟨[], [], iface, rfl, rfl⟩
  | cons cur rest ih =>
    rw [insertRoute]
    split
    · exact ⟨[], cur :: rest, iface, rfl, rfl⟩
    obtain ⟨before, behind, iface', hrest, hnew⟩ := ih
    exact ⟨cur :: before, behind, iface', by rw [hrest]; rfl, by rw [hnew]; rfl⟩

lemma not_inserted_self (address netmask gateway : BitVec 32) (metric : BitVec 16) (table : List Route) :
    ¬Inserted address netmask gateway metric table table := by
  rintro ⟨before, behind, iface, htable, htable'⟩
  have hlen := congrArg length (htable.symm.trans htable')
  simp at hlen

lemma eraseP_insertRoute {p : Route → Bool} (hro : p ro = true)
    (htable : ∀ r ∈ table, p r = false) : (insertRoute ro table).eraseP p = table := by
  induction table with
  | nil => simp [insertRoute, hro]
  | cons cur rest ih =>
    have hcur := htable cur (by simp)
    rw [insertRoute]
    split
    · rw [eraseP_cons_of_pos hro]
    · rw [eraseP_cons_of_neg (by simp [hcur]), ih (fun r hr => htable r (by simp [hr]))]

lemma newRoute_isFor (address netmask gateway : BitVec 32) (metric : Int) (iface : Nat) :
    (newRoute address netmask gateway (BitVec.ofInt 16 metric) iface).isFor address netmask metric = true ↔
    address &&& netmask = address ∧ 0 ≤ metric ∧ metric < 65536 := by
  have hmetric : ((BitVec.ofInt 16 metric).toNat : Int) = metric ↔ 0 ≤ metric ∧ metric < 65536 := by
    rw [BitVec.toNat_ofInt]
    omega
  simp only [Route.isFor, newRoute, Bool.and_eq_true, beq_iff_eq, hmetric]
  tauto

lemma vderRouteDel_insertRoute {address netmask gateway : BitVec 32} {metric : Int} {iface : Nat}
    {table : List Route} (hkey : ¬HasKey table (address &&& netmask) netmask (BitVec.ofInt 16 metric)) :
    vderRouteDel address netmask metric
        (insertRoute (newRoute address netmask gateway (BitVec.ofInt 16 metric) iface) table) =
      (⟨0, none⟩, table) ↔ address &&& netmask = address ∧ 0 ≤ metric ∧ metric < 65536 := by
  have hfor := newRoute_isFor address netmask gateway metric iface
  generalize hnew : newRoute address netmask gateway (BitVec.ofInt 16 metric) iface = ro at hfor ⊢
  have habsent : ro ∉ table := by
    intro hmem
    refine hkey ⟨ro, hmem, ?_⟩
    rw [← hnew]
    exact ⟨rfl, rfl, rfl⟩
  have hmem : ro ∈ insertRoute ro table := mem_insertRoute.mpr (.inl rfl)
  constructor
  · intro hdel
    by_contra hnot
    -- the new route is passed over, so it is still there
    have hro : ¬ro.isFor address netmask metric = true := mt hfor.mp hnot
    have hstill : ro ∈ (vderRouteDel address netmask metric (insertRoute ro table)).2 := by
      unfold vderRouteDel
      split
      · exact (mem_eraseP_of_neg (p := fun r => r.isFor address netmask metric) hro).mpr hmem
      · exact hmem
    rw [hdel] at hstill
    exact habsent hstill
  intro hok
  have hro := hfor.mpr hok
  have hothers : ∀ r ∈ table, r.isFor address netmask metric = false := by
    intro r hr
    by_contra hfound
    rw [Bool.not_eq_false] at hfound
    simp only [Route.isFor, Bool.and_eq_true, beq_iff_eq] at hfound
    refine hkey ⟨r, hr, hfound.1.1.trans hok.1.symm, hfound.1.2, ?_⟩
    apply BitVec.eq_of_toNat_eq
    rw [BitVec.toNat_ofInt]
    omega
  rw [vderRouteDel, if_pos (any_eq_true.mpr ⟨ro, hmem, hro⟩), eraseP_insertRoute hro hothers]

def Insertable (address netmask gateway : BitVec 32) (metric : BitVec 16) (dst : Option Nat)
    (table : List Route) : Prop :=
  (dst ≠ none ∨ vderGetRoute table gateway ≠ none) ∧
    ∀ r ∈ table, r.destAddr = address &&& netmask → r.netmask = netmask → r.metric ≠ metric

lemma routeIface_eq_none {gateway : BitVec 32} {dst : Option Nat} :
    routeIface table gateway dst = none ↔ dst = none ∧ vderGetRoute table gateway = none := by
  simp [routeIface]

/-- Adding and deleting fit together exactly if nothing is inserted, or the table was not empty,
the address has no bits outside the netmask and the metric fits 16 bits. -/
theorem route_add_del (address netmask gateway : BitVec 32) (metric : Int) (dst : Option Nat) (table : List Route) :
    AddDelOk address netmask gateway metric dst table ↔
    ¬Insertable address netmask gateway (BitVec.ofInt 16 metric) dst table ∨
    (table ≠ [] ∧ address &&& netmask = address ∧ 0 ≤ metric ∧ metric < 65536) := by
  have hself := not_inserted_self address netmask gateway (BitVec.ofInt 16 metric) table
  unfold AddDelOk
  rcases vderRouteAdd_cases address netmask gateway (BitVec.ofInt 16 metric) dst table with
    ⟨hnone, heq⟩ | ⟨hkey, heq⟩ | ⟨iface, hiface, hkey, heq⟩
  · have hnot : ¬Insertable address netmask gateway (BitVec.ofInt 16 metric) dst table := by
      rintro ⟨hsome, -⟩
      obtain ⟨hdst, hget⟩ := routeIface_eq_none.mp hnone
      exact hsome.elim (fun h => h hdst) (fun h => h hget)
    rw [heq]
    simp [hself, hnot]
  · have hnot : ¬Insertable address netmask gateway (BitVec.ofInt 16 metric) dst table := by
      rintro ⟨-, hfree⟩
      obtain ⟨r, hr, hdest, hnm, hmetric⟩ := hkey
      exact hfree r hr hdest hnm hmetric
    rw [heq]
    simp [hself, hnot]
  have hcan : Insertable address netmask gateway (BitVec.ofInt 16 metric) dst table := by
    refine ⟨?_, fun r hr hdest hnm hmetric => hkey ⟨r, hr, hdest, hnm, hmetric⟩⟩
    by_contra hno
    rw [not_or, not_not, not_not] at hno
    rw [routeIface_eq_none.mpr hno] at hiface
    exact absurd hiface (by simp)
  have hins := inserted_insertRoute address netmask gateway (BitVec.ofInt 16 metric) iface table
  have hdel := @vderRouteDel_insertRoute address netmask gateway metric iface table hkey
  rw [heq]
  dsimp only
  rw [hdel]
  by_cases hempty : table = []
  · subst hempty
    simp [hins, hcan]
  · simp [hins, hcan, hempty]

theorem route_add_empty_table : ¬AddDelOk 0x0000000a 0x00ffffff 0 1 (some 0) [] := by
  rintro ⟨hret, -⟩
  have hzero := hret.mpr ⟨[], [], 0, rfl, rfl⟩
  exact absurd hzero (by decide)

end Vde
