import Vde.Proofs.L3Forward

/-!
# The ARP table of vde_l3

New entries go to the end of the table, and the table is searched from the front. So the first entry of an address is the
one that counts for ever, and what a host announces later has no effect unless it is the same. Nobody sets the `next` of a
new entry: if `malloc` has left something there, a search that finds nothing, and the next append, go through it.
-/

namespace Vde.L3

open Function

def Result.after : Result → Option Router
  | .done _ r => some r
  | .input r _ => some r
  | .nullIface => none
  | .divZero => none
  | .wild => none

def arpSender (vdb : Buff) : BitVec 32 := load32 vdb.data 28

def arpMac (vdb : Buff) : Mac := macAt vdb.data 22

def ArpForRouter (r : Router) (vdb : Buff) : Prop := (getIfaceByIpaddr r (ntohl (load32 vdb.data 38))).isSome = true

instance (r : Router) (vdb : Buff) : Decidable (ArpForRouter r vdb) := inferInstanceAs (Decidable (_ = true))

/-- The router, what its neighbours have announced, and whether a search of its tables has gone astray. -/
structure ArpHistory where
  router : Router
  announced : BitVec 32 → Option Mac
  crashed : Bool

/-- What arrives at the router, and anything else that leaves its table of addresses alone. -/
inductive CacheEvent where
  | arp (vdb : Buff)
  | ip (vdb : Buff)
  | other (r : Router)

def cacheMachine : Machine ArpHistory CacheEvent where
  enabled s
    | .arp _ => s.crashed = false
    | .ip vdb => s.crashed = false ∧ parseIp s.router vdb ≠ .nullIface ∧ parseIp s.router vdb ≠ .divZero
    | .other r => s.crashed = false ∧ r.arpTable = s.router.arpTable ∧ r.arpWild = s.router.arpWild
  step s
    | .arp vdb =>
      { router := (parseArp s.router vdb).after.getD s.router
        announced := if ArpForRouter s.router vdb then
          update s.announced (arpSender vdb) (some (arpMac vdb)) else s.announced
        crashed := (parseArp s.router vdb).after.isNone }
    | .ip vdb =>
      { s with
        router := (parseIp s.router vdb).after.getD s.router, crashed := (parseIp s.router vdb).after.isNone }
    | .other r => { s with router := r }

structure LastAnnounced (s : ArpHistory) : Prop where
  alive : s.crashed = false
  entry : ∀ a mac, s.announced a = some mac → ∃ ae, getArpEntry s.router a = some ae ∧ ae.mac = mac

/-- The searches of `ip_send` end, at what they look for or at a null pointer. -/
structure HopEnds (r : Router) (dst : BitVec 32) : Prop where
  routes : isNeightbor r dst = none → r.routeWild = false
  entry : ∀ i vif hop, hopOf r dst = some (i, vif, hop) → getArpEntry r (ntohl hop) = none → r.arpWild = false

/-- The searches of `parse_ip` end: the one for the sender, and for a packet that is passed on those for its hop. -/
structure IpEnds (r : Router) (vdb : Buff) : Prop where
  sender : getArpEntry r vdb.saddr = none → r.arpWild = false
  hop : ∀ r', learnArp r vdb = some r' → getIfaceByIpaddr r (ntohl vdb.daddr) = none → vdb.ttl ≠ 1 →
    HopEnds r' (ntohl vdb.daddr)

def KeepsAddress (s : ArpHistory) : CacheEvent → Prop
  | .arp vdb => ArpForRouter s.router vdb → s.router.arpWild = false ∧
    ∀ ae, getArpEntry s.router (arpSender vdb) = some ae → ae.mac = arpMac vdb
  | .ip vdb => IpEnds s.router vdb
  | .other _ => True

section Table

variable {r r' : Router} {vdb : Buff} {a : BitVec 32} {ae : ArpEntry}

lemma getArpEntry_congr (h : r'.arpTable = r.arpTable) : getArpEntry r' a = getArpEntry r a := by
  rw [getArpEntry, getArpEntry, h]

lemma getArpEntry_append (h : r'.arpTable = r.arpTable ++ [ae]) :
    getArpEntry r' a = (getArpEntry r a).or (if ae.ipaddr = a then some ae else none) := by
  rw [getArpEntry, getArpEntry, h, List.find?_append]
  by_cases haddr : ae.ipaddr = a
  · rw [List.find?_cons_of_pos (by simpa using haddr), if_pos haddr]
  · rw [List.find?_cons_of_neg (by simpa using haddr), if_neg haddr, List.find?_nil]

lemma getArpEntry_append_some (h : r'.arpTable = r.arpTable ++ [ae]) {old : ArpEntry}
    (hold : getArpEntry r a = some old) : getArpEntry r' a = some old := by
  rw [getArpEntry_append h, hold, Option.some_or]

lemma hopSend_arpTable {i : Nat} {vif : Iface} {hop : BitVec 32} (h : (hopSend r i vif hop vdb).after = some r') :
    r'.arpTable = r.arpTable := by
  have hcase := hopSend_case r i vif hop vdb
  generalize hopSend r i vif hop vdb = result at hcase h
  cases hcase with
  | wild _ _ => cases h
  | query _ _ =>
    cases h
    rfl
  | queued _ _ _ _ =>
    cases h
    rfl
  | dropped _ _ _ _ =>
    cases h
    rfl
  | divZero _ _ _ => cases h

lemma ipSend_arpTable (h : (ipSend r vdb).after = some r') : r'.arpTable = r.arpTable := by
  unfold ipSend at h
  split at h
  · exact hopSend_arpTable h
  split at h
  · cases h
  dsimp only at h
  split at h
  · unfold gatewaySend at h
    split at h
    · cases h
    · exact hopSend_arpTable h
  cases h
  rfl

lemma addArpEntry_table (h : addArpEntry r ae = some r') : r'.arpTable = r.arpTable ++ [ae] := by
  unfold addArpEntry at h
  split at h
  · cases h
  cases h
  rfl

lemma addArpEntry_none : addArpEntry r ae = none ↔ r.arpWild = true := by simp [addArpEntry]

lemma learnArp_none : learnArp r vdb = none ↔ getArpEntry r vdb.saddr = none ∧ r.arpWild = true := by
  unfold learnArp
  cases hae : getArpEntry r vdb.saddr with
  | some ae => simp
  | none => simp [addArpEntry_none]

lemma parseIp_arpTable {rl : Router} (hlearn : learnArp r vdb = some rl) (h : (parseIp r vdb).after = some r') :
    r'.arpTable = rl.arpTable := by
  rw [parseIp, hlearn] at h
  dsimp only at h
  split at h
  · cases h
    rfl
  unfold ipForward at h
  dsimp only at h
  split at h
  · cases h
    rfl
  · exact ipSend_arpTable h

lemma parseIp_kept (h : (parseIp r vdb).after = some r') (hae : getArpEntry r a = some ae) :
    getArpEntry r' a = some ae := by
  cases hlearn : learnArp r vdb with
  | none =>
    rw [parseIp, hlearn] at h
    cases h
  | some rl =>
    rw [getArpEntry_congr (parseIp_arpTable hlearn h)]
    unfold learnArp at hlearn
    split at hlearn
    · cases hlearn
      exact hae
    · exact getArpEntry_append_some (addArpEntry_table hlearn) hae

lemma hopSend_wild_iff {i : Nat} {vif : Iface} {hop : BitVec 32} :
    hopSend r i vif hop vdb = .wild ↔ getArpEntry r (ntohl hop) = none ∧ r.arpWild = true := by
  have hcase := hopSend_case r i vif hop vdb
  generalize hopSend r i vif hop vdb = result at hcase
  cases hcase with
  | wild hae hwild => exact iff_of_true rfl ⟨hae, hwild⟩
  | query _ hends => exact iff_of_false (fun h => by cases h) (fun h => by cases hends.symm.trans h.2)
  | queued _ _ hae => exact iff_of_false (fun h => by cases h) (fun h => by cases hae.symm.trans h.1)
  | dropped _ _ hae => exact iff_of_false (fun h => by cases h) (fun h => by cases hae.symm.trans h.1)
  | divZero _ hae => exact iff_of_false (fun h => by cases h) (fun h => by cases hae.symm.trans h.1)

lemma ipSend_wild_iff : ipSend r vdb = .wild ↔ ¬HopEnds r (ntohl vdb.daddr) := by
  cases hhop : hopOf r (ntohl vdb.daddr) with
  | some way =>
    obtain ⟨i, vif, hop⟩ := way
    have hroutes : isNeightbor r (ntohl vdb.daddr) = none → r.routeWild = false := by
      intro hnone
      cases hwild : r.routeWild with
      | false => rfl
      | true =>
        simp only [hopOf, hnone, hwild, true_or, if_true] at hhop
        cases hhop
    rw [ipSend_hop _ _ hhop, hopSend_wild_iff]
    constructor
    · rintro ⟨hae, hwild⟩ hends
      cases hwild.symm.trans (hends.entry i vif hop hhop hae)
    intro hno
    by_contra hends
    refine hno ⟨hroutes, fun _ _ _ hhop' hae => ?_⟩
    cases hhop.symm.trans hhop'
    exact Bool.eq_false_iff.mpr fun hwild => hends ⟨hae, hwild⟩
  | none =>
    have hno : ∀ {i vif hop}, hopOf r (ntohl vdb.daddr) = some (i, vif, hop) → r.arpWild = false := fun h => by
      cases hhop.symm.trans h
    cases hnext : isNeightbor r (ntohl vdb.daddr) with
    | some oif =>
      rw [hopOf, hnext] at hhop
      cases hhop
    | none =>
    cases hwild : r.routeWild with
    | true =>
      refine iff_of_true ?_ fun hends => ?_
      · rw [ipSend, hnext]
        exact if_pos hwild
      · cases hwild.symm.trans (hends.routes hnext)
    | false =>
      refine iff_of_false ?_ (not_not.mpr ⟨fun _ => hwild, fun _ _ _ h _ => hno h⟩)
      rw [hopOf, hnext] at hhop
      rw [ipSend, hnext]
      simp only [hwild, Bool.false_eq_true, if_false, false_or] at hhop ⊢
      by_cases hgateway : getGateway r (ntohl vdb.daddr) = 0
      · rw [if_neg (not_not.mpr hgateway)]
        exact fun h => by cases h
      rw [if_neg hgateway, Option.map_eq_none_iff] at hhop
      rw [if_pos hgateway, gatewaySend, hhop]
      exact fun h => by cases h

lemma parseIp_wild_iff : parseIp r vdb = .wild ↔ ¬IpEnds r vdb := by
  cases hlearn : learnArp r vdb with
  | none =>
    have hnone := learnArp_none.mp hlearn
    refine iff_of_true (by rw [parseIp, hlearn]) fun hends => ?_
    cases hnone.2.symm.trans (hends.sender hnone.1)
  | some rl =>
    have hsender : getArpEntry r vdb.saddr = none → r.arpWild = false := fun hnone =>
      Bool.eq_false_iff.mpr fun hwild => by cases hlearn.symm.trans (learnArp_none.mpr ⟨hnone, hwild⟩)
    have hrest : IpEnds r vdb ↔
        (getIfaceByIpaddr r (ntohl vdb.daddr) = none → vdb.ttl ≠ 1 → HopEnds rl (ntohl vdb.daddr)) := by
      refine ⟨fun h => h.hop rl hlearn, fun h => ⟨hsender, fun r' hr' => ?_⟩⟩
      cases hlearn.symm.trans hr'
      exact h
    rw [hrest]
    cases hother : getIfaceByIpaddr r (ntohl vdb.daddr) with
    | some iface =>
      refine iff_of_false ?_ (not_not.mpr fun h => by cases h)
      simp only [parseIp, hlearn, (learnArp_ways hlearn).iface, hother]
      exact fun h => by cases h
    | none =>
      rw [parseIp_forward hlearn hother, ipForward]
      by_cases hone : vdb.ttl = 1
      · rw [if_pos (by rw [decrementTtl_ttl, hone]; decide)]
        exact iff_of_false (fun h => by cases h) (not_not.mpr fun _ h => absurd hone h)
      rw [if_neg (decrementTtl_alive hone), ipSend_wild_iff, decrementTtl_daddr]
      exact not_congr ⟨fun h _ _ => h, fun h => h rfl hone⟩

/-- What `parse_arp` comes to: it returns, with a new entry if the packet is for the router, or it follows the last
`next`. -/
inductive ArpCase (r : Router) (vdb : Buff) : Result → Prop
  | ignored (ret : Int) (h : ¬ArpForRouter r vdb) : ArpCase r vdb (.done ret r)
  | learnt (ret : Int) (r' : Router) (h : ArpForRouter r vdb) (hends : r.arpWild = false)
      (htable : r'.arpTable = r.arpTable ++ [⟨arpMac vdb, arpSender vdb⟩]) : ArpCase r vdb (.done ret r')
  | wild (h : ArpForRouter r vdb) (hwild : r.arpWild = true) : ArpCase r vdb .wild

lemma parseArp_case (r : Router) (vdb : Buff) : ArpCase r vdb (parseArp r vdb) := by
  unfold parseArp
  split
  · next hiface =>
    refine .ignored _ ?_
    rw [ArpForRouter, hiface]
    exact Bool.false_ne_true
  next i vif hiface =>
  have hfor : ArpForRouter r vdb := by
    rw [ArpForRouter, hiface]
    rfl
  split
  · next hnone => exact .wild hfor (addArpEntry_none.mp hnone)
  next r' hadd =>
  have hends : r.arpWild = false := Bool.eq_false_iff.mpr fun hwild => by
    cases (addArpEntry_none.mpr hwild).symm.trans hadd
  have htable := addArpEntry_table hadd
  split
  · exact .learnt _ _ hfor hends htable
  · exact .learnt _ _ hfor hends htable

end Table

section Steps

variable {s : ArpHistory}

lemma arp_keeps_iff (hs : LastAnnounced s) {vdb : Buff} :
    LastAnnounced (cacheMachine.step s (.arp vdb)) ↔ KeepsAddress s (.arp vdb) := by
  have hcase := parseArp_case s.router vdb
  have hstep : cacheMachine.step s (.arp vdb) =
      { router := (parseArp s.router vdb).after.getD s.router
        announced := if ArpForRouter s.router vdb then
          update s.announced (arpSender vdb) (some (arpMac vdb)) else s.announced
        crashed := (parseArp s.router vdb).after.isNone } := rfl
  rw [hstep]
  generalize parseArp s.router vdb = result at hcase
  cases hcase with
  | ignored _ hfor =>
    rw [if_neg hfor]
    exact iff_of_true ⟨rfl, hs.entry⟩ (fun h => absurd h hfor)
  | wild hfor hwild =>
    refine iff_of_false (fun h => ?_) (fun h => ?_)
    · cases h.alive
    · cases hwild.symm.trans (h hfor).1
  | learnt _ r' hfor hends htable =>
    rw [if_pos hfor]
    constructor
    · intro hlast hfor'
      refine ⟨hends, fun ae hae => ?_⟩
      obtain ⟨ae', hae', hmac⟩ := hlast.entry (arpSender vdb) (arpMac vdb) (update_self _ _ _)
      cases (getArpEntry_append_some htable hae).symm.trans hae'
      exact hmac
    intro hkeeps
    refine ⟨rfl, fun a mac hannounced => ?_⟩
    dsimp only at hannounced
    by_cases ha : a = arpSender vdb
    · subst ha
      rw [update_self] at hannounced
      cases hannounced
      cases hold : getArpEntry s.router (arpSender vdb) with
      | some ae => exact ⟨ae, getArpEntry_append_some htable hold, (hkeeps hfor).2 ae hold⟩
      | none =>
        refine ⟨⟨arpMac vdb, arpSender vdb⟩, (getArpEntry_append htable).trans ?_, rfl⟩
        rw [hold, if_pos rfl, Option.none_or]
    rw [update_of_ne ha] at hannounced
    obtain ⟨ae, hae, hmac⟩ := hs.entry a mac hannounced
    exact ⟨ae, getArpEntry_append_some htable hae, hmac⟩

lemma ip_keeps_iff (hs : LastAnnounced s) {vdb : Buff} (he : cacheMachine.enabled s (.ip vdb)) :
    LastAnnounced (cacheMachine.step s (.ip vdb)) ↔ KeepsAddress s (.ip vdb) := by
  have hstep : cacheMachine.step s (.ip vdb) = { s with
      router := (parseIp s.router vdb).after.getD s.router
      crashed := (parseIp s.router vdb).after.isNone } := rfl
  have hwild := @parseIp_wild_iff s.router vdb
  have hsame : KeepsAddress s (.ip vdb) ↔ parseIp s.router vdb ≠ .wild := by rw [Ne, hwild, not_not, KeepsAddress]
  rw [hstep, hsame]
  cases hafter : (parseIp s.router vdb).after with
  | some r' =>
    refine iff_of_true ⟨rfl, fun a mac hannounced => ?_⟩ fun h => ?_
    · obtain ⟨ae, hae, hmac⟩ := hs.entry a mac hannounced
      exact ⟨ae, parseIp_kept hafter hae, hmac⟩
    rw [h] at hafter
    cases hafter
  | none =>
    refine iff_of_false (fun h => by cases h.alive) (not_not.mpr ?_)
    obtain ⟨-, hnull, hzero⟩ := he
    generalize parseIp s.router vdb = result at *
    cases result with
    | wild => rfl
    | nullIface => exact absurd rfl hnull
    | divZero => exact absurd rfl hzero
    | done => cases hafter
    | input => cases hafter

lemma other_keeps (hs : LastAnnounced s) {r : Router} (he : cacheMachine.enabled s (.other r)) :
    LastAnnounced (cacheMachine.step s (.other r)) := by
  refine ⟨hs.alive, fun a mac hannounced => ?_⟩
  obtain ⟨ae, hae, hmac⟩ := hs.entry a mac hannounced
  exact ⟨ae, (getArpEntry_congr he.2.1).trans hae, hmac⟩

lemma keeps_iff (hs : LastAnnounced s) {e : CacheEvent} (he : cacheMachine.enabled s e) :
    LastAnnounced (cacheMachine.step s e) ↔ KeepsAddress s e := by
  cases e with
  | arp vdb => exact arp_keeps_iff hs
  | ip vdb => exact ip_keeps_iff hs he
  | other r => exact iff_of_true (other_keeps hs he) trivial

end Steps

def cacheStart (r : Router) : ArpHistory := { router := r, announced := fun _ => none, crashed := false }

def announcement (mac : Mac) : Buff :=
  { data := memcpy (fun _ => 0) 0
      (etherBroadcast ++ mac.toList ++ [0x08, 0x06, 0, 1, 0x08, 0x00, 6, 4, 0, 1] ++ mac.toList ++ [10, 0, 0, 2] ++
        List.replicate 6 0 ++ [10, 0, 0, 1])
    len := 42
    room := by decide }

lemma announcement_learnt :
    (cacheMachine.step (cacheStart twoNets) (.arp (announcement #v[2, 0, 0, 0, 0, 1]))).crashed = false := by
  decide +kernel

def movingHost : BitVec 32 := ntohl 0x0A000002

end Vde.L3
