import Mathlib.Data.List.MinMax
import Vde.L3Mgmt
import Vde.Proofs.L3Forward

/-!
# The next hop of vde_l3

`get_gateway` compares netmasks as numbers and takes zero for "none": it never takes a route with the
netmask zero, and leaves a route with the gateway zero for the default gateway. The commands make
such routes, and gateways that are on no network.
-/

namespace Vde.L3

open List Option

/-! ## Tables from commands -/

inductive TableCommand where
  | ifconfig (s : List Char)
  | route (s : List Char)

def tableStep (r : Router) : TableCommand → Router
  | .ifconfig s => (ifconfig r s).router
  | .route s => (route r s).router

def tableMachine : Machine Router TableCommand := { enabled := fun _ _ => True, step := tableStep }

def OptionRoutes (r : Router) : Prop := ∀ vdr ∈ r.routeTable, ∃ s, vdr.nm = ascii2nm s

def Configured : Router → Prop := tableMachine.Reach OptionRoutes

/-! ## What the next hop is -/

def OnNet (r : Router) (addr : BitVec 32) : Prop := ∃ vif ∈ r.interfaces, vif.onNetwork addr = true

def prefixLen (nm : BitVec 32) : Nat := (range 32).countP (fun i => nm.getLsbD i)

structure Strictest (r : Router) (dst : BitVec 32) (vdr : Route) : Prop where
  mem : vdr ∈ r.routeTable
  fits : vdr.matches dst = true
  max : ∀ vdr' ∈ r.routeTable, vdr'.matches dst = true → prefixLen vdr'.nm ≤ prefixLen vdr.nm

inductive NextHop (r : Router) (dst : BitVec 32) : BitVec 32 → Prop
  | direct (h : OnNet r dst) : NextHop r dst dst
  | gateway (h : ¬OnNet r dst) (vdr : Route) (hvdr : Strictest r dst vdr) : NextHop r dst vdr.gw
  | default (h : ¬OnNet r dst) (hnone : ∀ vdr ∈ r.routeTable, vdr.matches dst = false) :
      NextHop r dst r.defaultGw

def SendsThrough (r : Router) (vdb : Buff) (i : Nat) (vif : Iface) (res : Result) : Prop :=
  ∃ ret r', res = .done ret r' ∧
    ((∃ src dst, r'.queued = (i, addressed vdb src dst) :: r.queued) ∨
      ∃ tgt, r'.sent = (i, arpRequest vif tgt) :: r.sent)

def HopRight (r : Router) (vdb : Buff) : Prop :=
  ipSend r vdb = .done (-1) r ∨
    ∃ i vif hop, r.interfaces[i]? = some vif ∧ NextHop r (ntohl vdb.daddr) hop ∧ vif.onNetwork hop = true ∧
      SendsThrough r vdb i vif (ipSend r vdb)

/-! ## The condition -/

/-- The Ethernet address is known and the queue of the interface takes the packet, or the table ends without it. -/
def Ready (r : Router) (vdb : Buff) (addr : BitVec 32) (vif : Iface) : Prop :=
  match getArpEntry r (ntohl addr) with
  | none => r.arpWild = false
  | some _ => ∃ vif', enqueue vdb vif = some (true, vif')

/-- The first interface whose network has the address. -/
structure Link (r : Router) (vdb : Buff) (addr : BitVec 32) (vif : Iface) : Prop where
  first : ∃ i, isNeightbor r addr = some (i, vif)
  ready : Ready r vdb addr vif

def strictest (r : Router) (dst : BitVec 32) : Option Route :=
  (r.routeTable.filter (fun vdr => vdr.matches dst)).argmax (fun vdr => prefixLen vdr.nm)

/-- The way that `ip_send` has to take is there, and the table of routes ends where it is needed. A route without
netmask or gateway leaves the packet to the default gateway. -/
def HopOk (r : Router) (vdb : Buff) : Prop :=
  let dst := ntohl vdb.daddr
  OnNet r dst ∧ (∃ vif, Link r vdb dst vif) ∨
    ¬OnNet r dst ∧ r.routeWild = false ∧ match strictest r dst with
      | none => r.defaultGw = 0 ∨ ∃ vif, Link r vdb r.defaultGw vif
      | some vdr =>
        if vdr.nm ≠ 0 ∧ vdr.gw ≠ 0 then ∃ vif, Link r vdb vdr.gw vif
        else r.defaultGw = 0 ∨ ∃ vif, Link r vdb r.defaultGw vif ∧
          ∃ vdr', Strictest r dst vdr' ∧ vif.onNetwork vdr'.gw = true

/-! ## Netmasks -/

def Contiguous (nm : BitVec 32) : Prop := ∃ len ≤ 32, nm = maskOf len

lemma maskOf_succ : ∀ len < 32, maskOf len + (1 : BitVec 32) <<< (31 - len) = maskOf (len + 1) := by
  decide +kernel

lemma validNmLoop_contiguous (nm : BitVec 32) : ∀ i ≤ 32, Contiguous (validNmLoop nm i (maskOf (32 - i))) := by
  intro i
  induction i with
  | zero => exact fun _ => ⟨0, Nat.zero_le _, rfl⟩
  | succ i ih =>
    intro hi
    have hsucc := maskOf_succ (32 - (i + 1)) (by omega)
    rw [show 31 - (32 - (i + 1)) = i by omega, show 32 - (i + 1) + 1 = 32 - i by omega] at hsucc
    simp only [validNmLoop, hsucc]
    by_cases hnm : nm = maskOf (32 - i)
    · rw [if_pos hnm]
      exact ⟨32 - i, Nat.sub_le _ _, hnm⟩
    rw [if_neg hnm]
    exact ih (by omega)

lemma ascii2nm_contiguous (s : List Char) : Contiguous (ascii2nm s) := by
  have hvalid : ∀ nm, Contiguous (validNm nm) := fun nm => validNmLoop_contiguous nm 32 (Nat.le_refl _)
  unfold ascii2nm
  dsimp only
  split <;> exact hvalid _

lemma prefixLen_maskOf {len : Nat} (h : len ≤ 32) : prefixLen (maskOf len) = len := countP_maskOf len h

lemma Contiguous.lt_iff {nm nm' : BitVec 32} (h : Contiguous nm) (h' : Contiguous nm') :
    nm < nm' ↔ prefixLen nm < prefixLen nm' := by
  obtain ⟨len, hlen, heq⟩ := h
  obtain ⟨len', hlen', heq'⟩ := h'
  rw [heq, heq', prefixLen_maskOf hlen, prefixLen_maskOf hlen']
  constructor
  · intro hlt
    by_contra hge
    exact absurd (maskOf_le (Nat.not_lt.mp hge)) (BitVec.not_le.mpr hlt)
  intro hlt
  by_contra hge
  have hsame : maskOf len = maskOf len' := BitVec.le_antisymm (maskOf_le hlt.le) (BitVec.not_lt.mp hge)
  have hcount := congrArg prefixLen hsame
  rw [prefixLen_maskOf hlen, prefixLen_maskOf hlen'] at hcount
  omega

def MaskedRoutes (routes : List Route) : Prop := ∀ vdr ∈ routes, Contiguous vdr.nm

lemma updateRoute_masked {new : Route} : ∀ {routes routes' : List Route}, updateRoute new routes = some routes' →
    MaskedRoutes routes → MaskedRoutes routes'
  | [], _, h, _ => by cases h
  | pr :: rest, routes', h, hmasked => by
    rw [updateRoute] at h
    have hpr : Contiguous pr.nm := hmasked pr mem_cons_self
    have hrest : MaskedRoutes rest := fun vdr hvdr => hmasked vdr (mem_cons_of_mem pr hvdr)
    by_cases hsame : new.network = pr.network ∧ new.nm = pr.nm
    · rw [if_pos hsame] at h
      cases h
      intro vdr hvdr
      rcases mem_cons.mp hvdr with heq | hmem
      · rw [heq]
        exact hpr
      · exact hrest vdr hmem
    rw [if_neg hsame] at h
    obtain ⟨rest', hrest', heq⟩ := map_eq_some_iff.mp h
    cases heq
    intro vdr hvdr
    rcases mem_cons.mp hvdr with heq | hmem
    · rw [heq]
      exact hpr
    · exact updateRoute_masked hrest' hrest vdr hmem

variable {r : Router} {vdr : Route}

lemma addRoute_table {r' : Router} (h : addRoute r vdr = some r') : r'.routeTable = r.routeTable ++ [vdr] := by
  unfold addRoute at h
  split at h
  · cases h
  cases h
  rfl

lemma route_masked (h : MaskedRoutes r.routeTable) (s : List Char) :
    MaskedRoutes (route r s).router.routeTable := by
  have hnet : ∀ s, MaskedRoutes (routeNet r s).router.routeTable := by
    intro s
    unfold routeNet
    cases cut '/' s with
    | none => exact h
    | some p =>
      obtain ⟨addr, nm⟩ := p
      cases hgw : cut ':' nm with
      | none =>
        simp only [hgw]
        exact h
      | some q =>
        obtain ⟨nm', gw⟩ := q
        simp only [hgw]
        generalize hnew : ({ network := unicastIp (ascii2ip addr), nm := ascii2nm nm', gw := unicastIp (ascii2ip gw) } : Route) = new
        cases hupdate : updateRoute new r.routeTable with
        | some routes => exact updateRoute_masked hupdate h
        | none =>
          cases hadd : addRoute r new with
          | none => exact h
          | some r' =>
            intro vdr hvdr
            rw [addRoute_table hadd] at hvdr
            rcases mem_append.mp hvdr with hold | hlast
            · exact h vdr hold
            rw [mem_singleton.mp hlast, ← hnew]
            exact ascii2nm_contiguous nm'
  unfold route
  dsimp only
  repeat' split
  all_goals first | exact h | exact hnet _

lemma ifconfig_routes (r : Router) (s : List Char) : (ifconfig r s).router.routeTable = r.routeTable := by
  unfold ifconfig ifconfigSet
  dsimp only
  repeat' split
  all_goals rfl

lemma Configured.masked (h : Configured r) : MaskedRoutes r.routeTable := by
  refine Machine.Reach.invariant (fun r => MaskedRoutes r.routeTable) ?_ ?_ h
  · intro r hr vdr hvdr
    obtain ⟨s, hs⟩ := hr vdr hvdr
    rw [hs]
    exact ascii2nm_contiguous s
  intro r c hr _
  cases c with
  | ifconfig s =>
    change MaskedRoutes (ifconfig r s).router.routeTable
    rw [ifconfig_routes]
    exact hr
  | route s => exact route_masked hr s

/-! ## get_gateway -/

/-- What the loop of `get_gateway` keeps of the strictest route so far. -/
def kept : Option Route → BitVec 32 × BitVec 32
  | none => (0, 0)
  | some vdr => if vdr.nm = 0 then (0, 0) else (vdr.gw, vdr.nm)

lemma kept_some (vdr : Route) : kept (some vdr) = if vdr.nm = 0 then (0, 0) else (vdr.gw, vdr.nm) := rfl

lemma kept_netmask (vdr : Route) : (kept (some vdr)).2 = vdr.nm := by
  rw [kept_some]
  by_cases hnm : vdr.nm = 0
  · rw [if_pos hnm, hnm]
  · rw [if_neg hnm]

def stricter (best : Option Route) (vdr : Route) : Option Route :=
  argAux (fun b c => prefixLen c.nm < prefixLen b.nm) best vdr

lemma stricter_mem {best : Option Route} {v : Route} (h : stricter best vdr = some v) :
    v = vdr ∨ best = some v := by
  cases best with
  | none => exact Or.inl (some.inj h).symm
  | some c =>
    have hstep : (if prefixLen c.nm < prefixLen vdr.nm then some vdr else some c) = some v := h
    by_cases hlt : prefixLen c.nm < prefixLen vdr.nm
    · rw [if_pos hlt] at hstep
      exact Or.inl (some.inj hstep).symm
    rw [if_neg hlt] at hstep
    exact Or.inr hstep

lemma kept_stricter (hvdr : Contiguous vdr.nm) (best : Option Route)
    (hbest : ∀ v, best = some v → Contiguous v.nm) :
    (if (kept best).2 < vdr.nm then (vdr.gw, vdr.nm) else kept best) = kept (stricter best vdr) := by
  cases best with
  | none =>
    have hstep : stricter none vdr = some vdr := rfl
    have hpos : (kept none).2 < vdr.nm ↔ vdr.nm ≠ 0 := BitVec.pos_iff_ne_zero vdr.nm
    rw [hstep, kept_some]
    by_cases hnm : vdr.nm = 0
    · rw [if_pos hnm, if_neg (fun h => hpos.mp h hnm)]
      rfl
    · rw [if_neg hnm, if_pos (hpos.mpr hnm)]
  | some c =>
    have hstep : stricter (some c) vdr = if prefixLen c.nm < prefixLen vdr.nm then some vdr else some c := rfl
    have hlt := (hbest c rfl).lt_iff hvdr
    rw [hstep, kept_netmask]
    by_cases hless : c.nm < vdr.nm
    · have hpos : vdr.nm ≠ 0 := by
        intro hzero
        rw [hzero] at hless
        exact BitVec.not_lt_zero hless
      rw [if_pos hless, if_pos (hlt.mp hless), kept_some, if_neg hpos]
    · rw [if_neg hless, if_neg (fun h => hless (hlt.mpr h))]

lemma gatewayLoop_kept (addr : BitVec 32) : ∀ {routes : List Route} (best : Option Route), MaskedRoutes routes →
    (∀ v, best = some v → Contiguous v.nm) →
    gatewayLoop addr routes (kept best) =
      kept ((routes.filter (fun vdr => vdr.matches addr)).foldl stricter best)
  | [], best, _, _ => rfl
  | vdr :: rest, best, hroutes, hbest => by
    have hvdr : Contiguous vdr.nm := hroutes vdr mem_cons_self
    have hrest : MaskedRoutes rest := fun v hv => hroutes v (mem_cons_of_mem vdr hv)
    rw [gatewayLoop, filter_cons]
    by_cases hmatch : vdr.matches addr = true
    · have hbest' : ∀ v, stricter best vdr = some v → Contiguous v.nm := by
        intro v hv
        rcases stricter_mem hv with heq | hold
        · rw [heq]
          exact hvdr
        · exact hbest v hold
      rw [if_pos hmatch, foldl_cons, ← gatewayLoop_kept addr _ hrest hbest', ← kept_stricter hvdr best hbest]
      by_cases hless : (kept best).2 < vdr.nm
      · rw [if_pos ⟨hmatch, hless⟩, if_pos hless]
      · rw [if_neg (fun h => hless h.2), if_neg hless]
    rw [if_neg hmatch, if_neg (fun h => hmatch h.1)]
    exact gatewayLoop_kept addr best hrest hbest

lemma getGateway_eq (h : MaskedRoutes r.routeTable) (dst : BitVec 32) :
    getGateway r dst = match strictest r dst with
      | none => r.defaultGw
      | some vdr => if vdr.nm ≠ 0 ∧ vdr.gw ≠ 0 then vdr.gw else r.defaultGw := by
  have hloop : gatewayLoop dst r.routeTable (0, 0) = kept (strictest r dst) :=
    gatewayLoop_kept dst none h (fun v hv => by cases hv)
  unfold getGateway
  rw [hloop]
  cases strictest r dst with
  | none => exact if_pos rfl
  | some vdr =>
    rw [kept_some]
    simp only
    by_cases hnm : vdr.nm = 0
    · have hskip : ¬(vdr.nm ≠ 0 ∧ vdr.gw ≠ 0) := fun h => h.1 hnm
      rw [if_neg hskip, if_pos hnm]
      exact if_pos rfl
    rw [if_neg hnm]
    by_cases hgw : vdr.gw = 0
    · have hskip : ¬(vdr.nm ≠ 0 ∧ vdr.gw ≠ 0) := fun h => h.2 hgw
      rw [if_neg hskip]
      exact if_pos hgw
    have huse : vdr.nm ≠ 0 ∧ vdr.gw ≠ 0 := ⟨hnm, hgw⟩
    rw [if_pos huse]
    exact if_neg hgw

lemma strictest_none {dst : BitVec 32} (h : strictest r dst = none) :
    ∀ vdr ∈ r.routeTable, vdr.matches dst = false := by
  intro vdr hvdr
  have hempty := argmax_eq_none.mp h
  have hno := filter_eq_nil_iff.mp hempty vdr hvdr
  exact Bool.eq_false_iff.mpr hno

lemma strictest_some {dst : BitVec 32} (h : strictest r dst = some vdr) : Strictest r dst vdr := by
  have hmem := mem_filter.mp (argmax_mem h)
  refine ⟨hmem.1, hmem.2, ?_⟩
  intro vdr' hvdr' hmatch
  have hin : vdr' ∈ r.routeTable.filter (fun vdr => vdr.matches dst) := mem_filter.mpr ⟨hvdr', hmatch⟩
  exact @le_of_mem_argmax _ _ _ (fun vdr : Route => prefixLen vdr.nm) _ _ _ hin h

/-! ## ip_send -/

variable {i : Nat} {vif : Iface}

lemma isNeightbor_some {addr : BitVec 32}
    (h : isNeightbor r addr = some (i, vif)) : r.interfaces[i]? = some vif ∧ vif.onNetwork addr = true := by
  obtain ⟨hnet, _, hget⟩ := firstIface_spec h
  exact ⟨hget, hnet⟩

lemma onNet_iff (r : Router) (addr : BitVec 32) : OnNet r addr ↔ ∃ i vif, isNeightbor r addr = some (i, vif) := by
  constructor
  · rintro ⟨vif, hvif, hnet⟩
    cases h : isNeightbor r addr with
    | none => cases (firstIface_none h vif hvif).symm.trans hnet
    | some oif => exact ⟨oif.1, oif.2, rfl⟩
  rintro ⟨i, vif, h⟩
  obtain ⟨hget, hnet⟩ := isNeightbor_some h
  exact ⟨vif, mem_of_getElem? hget, hnet⟩

variable {vdb : Buff}

lemma addressed_taken {src dst : Mac} :
    (∃ vif', enqueue (addressed vdb src dst) vif = some (true, vif')) ↔ ∃ vif', enqueue vdb vif = some (true, vif') := by
  have hlen : (addressed vdb src dst).len = vdb.len := rfl
  constructor
  · rintro ⟨_, h⟩
    exact enqueue_taken h hlen.symm
  rintro ⟨_, h⟩
  exact enqueue_taken h hlen

lemma hopSend_sends {hop : BitVec 32}
    (h : Ready r vdb hop vif) : SendsThrough r vdb i vif (hopSend r i vif hop vdb) := by
  have hcase := hopSend_case r i vif hop vdb
  generalize hopSend r i vif hop vdb = res at hcase ⊢
  have htakes : ∀ {ae : ArpEntry}, getArpEntry r (ntohl hop) = some ae →
      ∃ vif', enqueue (addressed vdb vif.mac ae.mac) vif = some (true, vif') := by
    intro ae hae
    rw [Ready, hae] at h
    exact addressed_taken.mpr h
  cases hcase with
  | wild hae hwild =>
    rw [Ready, hae] at h
    cases h.symm.trans hwild
  | query => exact ⟨0, _, rfl, Or.inr ⟨hop, rfl⟩⟩
  | queued ae => exact ⟨1, _, rfl, Or.inl ⟨vif.mac, ae.mac, rfl⟩⟩
  | dropped ae _ hae henq =>
    obtain ⟨_, htaken⟩ := htakes hae
    cases henq.symm.trans htaken
  | divZero ae hae henq =>
    obtain ⟨_, htaken⟩ := htakes hae
    cases henq.symm.trans htaken

lemma sends_hopSend {j : Nat} {vif' : Iface} {hop : BitVec 32}
    (h : SendsThrough r vdb j vif' (hopSend r i vif hop vdb)) : j = i ∧ Ready r vdb hop vif := by
  have hcase := hopSend_case r i vif hop vdb
  generalize hopSend r i vif hop vdb = res at h hcase
  obtain ⟨ret, r', hres, hsends⟩ := h
  unfold Ready
  cases hcase with
  | wild => cases hres
  | query hae hends =>
    cases hres
    rcases hsends with ⟨src, dst, hqueued⟩ | ⟨tgt, hsent⟩
    · exact absurd hqueued.symm (cons_ne_self _ _)
    have heq : (i, arpRequest vif hop) = (j, arpRequest vif' tgt) := (cons.inj hsent).1
    rw [hae]
    exact ⟨(congrArg Prod.fst heq).symm, hends⟩
  | queued ae vif'' hae henq =>
    cases hres
    rcases hsends with ⟨src, dst, hqueued⟩ | ⟨tgt, hsent⟩
    · have heq : (i, addressed vdb vif.mac ae.mac) = (j, addressed vdb src dst) := (cons.inj hqueued).1
      rw [hae]
      exact ⟨(congrArg Prod.fst heq).symm, addressed_taken.mp ⟨vif'', henq⟩⟩
    · exact absurd hsent.symm (cons_ne_self _ _)
  | dropped =>
    cases hres
    rcases hsends with ⟨src, dst, hqueued⟩ | ⟨tgt, hsent⟩
    · exact absurd hqueued.symm (cons_ne_self _ _)
    · exact absurd hsent.symm (cons_ne_self _ _)
  | divZero => cases hres

lemma hopSend_ret (r : Router) (i : Nat) (vif : Iface) (hop : BitVec 32) (vdb : Buff) :
    hopSend r i vif hop vdb ≠ .done (-1) r := by
  intro h
  have hcase := hopSend_case r i vif hop vdb
  rw [h] at hcase
  cases hcase

lemma next_hop_right_iff {gw : BitVec 32} (hsend : ipSend r vdb = gatewaySend r vdb gw) : HopRight r vdb ↔ ∃ vif,
    Link r vdb gw vif ∧ ∃ hop, NextHop r (ntohl vdb.daddr) hop ∧ vif.onNetwork hop = true := by
  unfold HopRight
  rw [hsend, gatewaySend]
  cases hfirst : isNeightbor r gw with
  | none =>
    constructor
    · intro h
      rcases h with h | ⟨_, _, _, _, _, _, _, _, h, _⟩
      · cases h
      · cases h
    rintro ⟨vif, hlink, _⟩
    obtain ⟨i, h⟩ := hlink.first
    cases hfirst.symm.trans h
  | some oif =>
    obtain ⟨i, vif⟩ := oif
    have hget := (isNeightbor_some hfirst).1
    constructor
    · intro h
      rcases h with h | ⟨j, vif', hop, hget', hhop, hnet, hsends⟩
      · exact absurd h (hopSend_ret r i vif gw vdb)
      obtain ⟨hji, hready⟩ := sends_hopSend hsends
      rw [hji] at hget'
      cases hget.symm.trans hget'
      exact ⟨vif, ⟨⟨i, hfirst⟩, hready⟩, hop, hhop, hnet⟩
    rintro ⟨vif', hlink, hop, hhop, hnet⟩
    obtain ⟨i', hfirst'⟩ := hlink.first
    cases hfirst.symm.trans hfirst'
    exact Or.inr ⟨i, vif, hop, hget, hhop, hnet, hopSend_sends hlink.ready⟩

lemma Link.onNetwork {addr : BitVec 32} (h : Link r vdb addr vif) : vif.onNetwork addr = true := by
  obtain ⟨_, hfirst⟩ := h.first
  exact (isNeightbor_some hfirst).2

lemma link_right_iff {gw : BitVec 32} (hsend : ipSend r vdb = gatewaySend r vdb gw)
    (hhop : NextHop r (ntohl vdb.daddr) gw) : HopRight r vdb ↔ ∃ vif, Link r vdb gw vif := by
  rw [next_hop_right_iff hsend]
  constructor
  · exact fun ⟨vif, hlink, _⟩ => ⟨vif, hlink⟩
  · exact fun ⟨vif, hlink⟩ => ⟨vif, hlink, gw, hhop, hlink.onNetwork⟩

lemma ipSend_direct (h : OnNet r (ntohl vdb.daddr)) : ipSend r vdb = gatewaySend r vdb (ntohl vdb.daddr) := by
  obtain ⟨i, vif, hfirst⟩ := (onNet_iff r _).mp h
  unfold ipSend gatewaySend
  rw [hfirst]
  rfl

lemma ipSend_gateway (h : ¬OnNet r (ntohl vdb.daddr)) : ipSend r vdb =
    if r.routeWild then .wild else if getGateway r (ntohl vdb.daddr) = 0 then .done (-1) r else
    gatewaySend r vdb (getGateway r (ntohl vdb.daddr)) := by
  have hnone : isNeightbor r (ntohl vdb.daddr) = none := by
    cases hfirst : isNeightbor r (ntohl vdb.daddr) with
    | none => rfl
    | some oif => exact absurd ((onNet_iff r _).mpr ⟨oif.1, oif.2, hfirst⟩) h
  unfold ipSend
  rw [hnone]
  simp only [ne_eq, ite_not]

/-- `ip_send` takes the packet to its next hop, or returns -1, exactly when the way that it has to take is
there. -/
theorem hop_right_iff (r : Router) (h : Configured r) (vdb : Buff) : HopRight r vdb ↔ HopOk r vdb := by
  have hgateway := getGateway_eq h.masked (ntohl vdb.daddr)
  by_cases hnet : OnNet r (ntohl vdb.daddr)
  · rw [link_right_iff (ipSend_direct hnet) (.direct hnet)]
    constructor
    · exact fun hlink => Or.inl ⟨hnet, hlink⟩
    intro hok
    rcases hok with ⟨_, hlink⟩ | ⟨hno, _⟩
    · exact hlink
    · exact absurd hnet hno
  have hsend := ipSend_gateway hnet
  cases hwild : r.routeWild with
  | true =>
    rw [if_pos hwild] at hsend
    refine iff_of_false ?_ ?_
    · rintro (h | ⟨_, _, _, _, _, _, _, _, h, _⟩)
      · cases hsend.symm.trans h
      · cases hsend.symm.trans h
    rintro (⟨hdirect, _⟩ | ⟨_, hends, _⟩)
    · exact hnet hdirect
    · cases hwild.symm.trans hends
  | false =>
  rw [if_neg (Bool.eq_false_iff.mp hwild)] at hsend
  have hok : HopOk r vdb ↔ match strictest r (ntohl vdb.daddr) with
      | none => r.defaultGw = 0 ∨ ∃ vif, Link r vdb r.defaultGw vif
      | some vdr =>
        if vdr.nm ≠ 0 ∧ vdr.gw ≠ 0 then ∃ vif, Link r vdb vdr.gw vif
        else r.defaultGw = 0 ∨ ∃ vif, Link r vdb r.defaultGw vif ∧
          ∃ vdr', Strictest r (ntohl vdb.daddr) vdr' ∧ vif.onNetwork vdr'.gw = true :=
    ⟨fun hok => hok.elim (fun hdirect => absurd hdirect.1 hnet) (fun hway => hway.2.2),
      fun hway => Or.inr ⟨hnet, hwild, hway⟩⟩
  rw [hok]
  cases hstrict : strictest r (ntohl vdb.daddr) with
  | none =>
    have hnone := strictest_none hstrict
    rw [hstrict] at hgateway
    simp only at hgateway ⊢
    rw [hgateway] at hsend
    by_cases hdefault : r.defaultGw = 0
    · rw [if_pos hdefault] at hsend
      exact iff_of_true (Or.inl hsend) (Or.inl hdefault)
    rw [if_neg hdefault] at hsend
    rw [link_right_iff hsend (.default hnet hnone)]
    exact ⟨Or.inr, fun hway => hway.elim (fun hzero => absurd hzero hdefault) id⟩
  | some vdr =>
    have hvdr := strictest_some hstrict
    rw [hstrict] at hgateway
    simp only at hgateway ⊢
    by_cases huse : vdr.nm ≠ 0 ∧ vdr.gw ≠ 0
    · rw [if_pos huse] at hgateway ⊢
      rw [hgateway, if_neg huse.2] at hsend
      exact link_right_iff hsend (.gateway hnet vdr hvdr)
    rw [if_neg huse] at hgateway ⊢
    rw [hgateway] at hsend
    by_cases hdefault : r.defaultGw = 0
    · rw [if_pos hdefault] at hsend
      exact iff_of_true (Or.inl hsend) (Or.inl hdefault)
    rw [if_neg hdefault] at hsend
    rw [next_hop_right_iff hsend]
    constructor
    · rintro ⟨vif, hlink, hop, hhop, hon⟩
      cases hhop with
      | direct hdirect => exact absurd hdirect hnet
      | gateway _ vdr' hvdr' => exact Or.inr ⟨vif, hlink, vdr', hvdr', hon⟩
      | default _ hnone => cases (hnone vdr hvdr.mem).symm.trans hvdr.fits
    intro hway
    rcases hway with hzero | ⟨vif, hlink, vdr', hvdr', hon⟩
    · exact absurd hzero hdefault
    · exact ⟨vif, hlink, vdr'.gw, .gateway hnet vdr' hvdr', hon⟩

lemma farPacket_room : 34 ≤ 1550 := by decide

def farPacket : Buff :=
  { data := memcpy (fun _ => 0) 0
      [0, 0xAA, 10, 0, 0, 1, 2, 0, 0, 0, 0, 1, 8, 0, 0x45, 0, 0, 20, 0, 0, 0, 0, 64, 1, 0, 0,
        10, 0, 0, 2, 172, 16, 0, 1]
    len := 34
    room := farPacket_room }

def nearGateway : List Char :=
  ['d', 'e', 'f', 'a', 'u', 'l', 't', ' ', 'g', 'w', ' ', '1', '0', '.', '0', '.', '1', '.', '2', '\n']

def routed : Router := tableMachine.step twoNets (.route nearGateway)

theorem hop_right_iff_routed : HopRight routed farPacket := by
  have hstart : OptionRoutes twoNets := fun vdr hvdr => absurd hvdr not_mem_nil
  have hknown : (getArpEntry routed (ntohl routed.defaultGw)).isSome = true := by decide +kernel
  have hpolicy : (isNeightbor routed routed.defaultGw).map (fun oif => oif.2.policy) = some .ufifo := by decide +kernel
  have hstrict : strictest routed (ntohl farPacket.daddr) = none := by decide +kernel
  obtain ⟨ae, hae⟩ := isSome_iff_exists.mp hknown
  obtain ⟨⟨i, vif⟩, hfirst, hufifo⟩ := map_eq_some_iff.mp hpolicy
  refine (hop_right_iff routed (.step twoNets (TableCommand.route nearGateway) (.init twoNets hstart) trivial)
    farPacket).mpr (Or.inr ⟨?_, by decide +kernel, ?_⟩)
  · unfold OnNet
    decide +kernel
  rw [hstrict]
  refine Or.inr ⟨vif, ⟨i, hfirst⟩, ?_⟩
  rw [Ready, hae]
  exact ⟨_, by rw [enqueue, hufifo]⟩

def strayGateway : List Char :=
  ['d', 'e', 'f', 'a', 'u', 'l', 't', ' ', 'g', 'w', ' ', '1', '9', '2', '.', '1', '6', '8', '.', '9', '.', '9', '\n']

def strayed : Router := tableMachine.step twoNets (.route strayGateway)

lemma strayed_configured : Configured strayed := by
  have hstart : OptionRoutes twoNets := fun vdr hvdr => absurd hvdr not_mem_nil
  exact .step twoNets (TableCommand.route strayGateway) (.init twoNets hstart) trivial

/-- `gateway_send` writes the packet with the address of no interface. -/
theorem stray_gateway_null : Configured strayed ∧ ¬HopRight strayed farPacket := by
  have hdst : isNeightbor strayed (ntohl farPacket.daddr) = none := by
    apply isNone_iff_eq_none.mp
    decide +kernel
  have hgw : isNeightbor strayed (getGateway strayed (ntohl farPacket.daddr)) = none := by
    apply isNone_iff_eq_none.mp
    decide +kernel
  have hne : getGateway strayed (ntohl farPacket.daddr) ≠ 0 := by decide +kernel
  have hnull : ipSend strayed farPacket = .nullIface := by
    unfold ipSend gatewaySend
    rw [hdst]
    simp only [hgw]
    rw [if_neg (show ¬strayed.routeWild = true by decide +kernel), if_pos hne]
  constructor
  · exact strayed_configured
  intro h
  rcases h with h | ⟨_, _, _, _, _, _, _, _, h, _⟩
  · cases hnull.symm.trans h
  · cases hnull.symm.trans h

end Vde.L3
