import Mathlib.Data.List.Nodup
import Mathlib.Data.List.TakeWhile
import Vde.Iplog
import Vde.Lib.Machine

/-!
# The entries of iplog

The search loop goes on only while the address differs and the length and the vlan are those of the packet. So it finds
the entry of the packet as long as all entries in front of it have the same length and the same vlan. Of a frame with a
tag the plugin takes the wrong six bytes for the source address, so the runs keep the right one beside the table.
-/

namespace Vde.Iplog

open List Function

abbrev Key := Nat × List UInt8 × Nat

def IpHashEntry.key (e : IpHashEntry) : Key := (e.len, e.ipaddr, e.vlan)

def Logged.key (p : Logged) : Key := (p.len, p.addr, p.vlan)

def keyHash (key : Key) : Nat := ipHash key.1 key.2.1

def IpLog.entries (t : IpLog) : List IpHashEntry := (range IP_HASH_SIZE).flatMap t.iph

/-- A logged packet, a closed port, or a garbage collection. -/
inductive IpEvent where
  | pktin (ranges : Ranges) (buf : Mem) (port : Int) (found : Found)
  | portMinus (port : Int)
  | gc (now expire : Int)

/-- The source address in the Ethernet header, which a tag does not move. -/
def sourceAddress (buf : Mem) : List UInt8 := readBytes buf 6 6

/-- The table, and for each key the source address of the last frame that was looked up with it. -/
structure Watched where
  log : IpLog
  sender : Key → List UInt8

def iplogMachine : Machine Watched IpEvent where
  enabled _ event :=
    match event with
    | .pktin _ _ port _ => 0 ≤ port
    | .portMinus _ => True
    | .gc _ _ => True
  step w event :=
    match event with
    | .pktin ranges buf port found =>
      match iplogPktin ranges buf port with
      | none => w
      | some p => ⟨ipFindInHashUpdate w.log p found, Function.update w.sender p.key (sourceAddress buf)⟩
    | .portMinus port => { w with log := iplogPortMinus port w.log }
    | .gc now expire => { w with log := ipHashGc now expire w.log }

def usedEntry (t : IpLog) (p : Logged) : Option IpHashEntry :=
  ((t.iph (ipHash p.len p.addr)).dropWhile (goesOn p)).head?

/-- The table has no entry for the packet, or one with another port, or one that a station with another source address
has used last. -/
def IsNews (t : IpLog) (p : Logged) (moved : Prop) : Prop :=
  (∀ e ∈ t.entries, e.key ≠ p.key) ∨ ∃ e ∈ t.entries, e.key = p.key ∧ (e.port ≠ p.port ∨ moved)

/-- A packet uses no entry but its own, and is logged exactly if it is news. -/
structure PacketRight (t : IpLog) (p : Logged) (found : Found) (moved : Prop) : Prop where
  own : ∀ e, usedEntry t p = some e → e.key = p.key
  logged : ((ipFindInHashUpdate t p found).lines = t.lines ++ [p] ∧ IsNews t p moved) ∨
    ((ipFindInHashUpdate t p found).lines = t.lines ∧ ¬IsNews t p moved)

def EventRight (w : Watched) (event : IpEvent) : Prop :=
  match event with
  | .pktin ranges buf port found =>
    ∀ p, iplogPktin ranges buf port = some p → PacketRight w.log p found (w.sender p.key ≠ sourceAddress buf)
  | .portMinus _ => True
  | .gc _ _ => True

def other (p : Logged) (e : IpHashEntry) : Bool := e.key != p.key

/-- The entries in front of the one for the packet, or all, have its length and its vlan; there is one, or memory for
a new one; and if it has the port of the packet, the bytes taken for the address tell stations apart as their addresses
do. -/
structure Findable (t : IpLog) (p : Logged) (found : Found) (moved : Prop) : Prop where
  front : ∀ e ∈ (t.iph (ipHash p.len p.addr)).takeWhile (other p), e.len = p.len ∧ e.vlan = p.vlan
  room : (∃ e ∈ t.iph (ipHash p.len p.addr), e.key = p.key) ∨ found.alloc = true
  told : ∀ e ∈ t.iph (ipHash p.len p.addr), e.key = p.key → e.port = p.port → (e.srcmac ≠ p.srcmac ↔ moved)

def EventOk (w : Watched) (event : IpEvent) : Prop :=
  match event with
  | .pktin ranges buf port found =>
    ∀ p, iplogPktin ranges buf port = some p → Findable w.log p found (w.sender p.key ≠ sourceAddress buf)
  | .portMinus _ => True
  | .gc _ _ => True

structure ChainInv (k : Nat) (chain : List IpHashEntry) : Prop where
  nodup : (chain.map IpHashEntry.key).Nodup
  place : ∀ e ∈ chain, keyHash e.key = k
  len : ∀ e ∈ chain, e.ipaddr.length = e.len

def IpInv (t : IpLog) : Prop := ∀ k, k < IP_HASH_SIZE → ChainInv k (t.iph k)

variable {t : IpLog} {w : Watched} {moved : Prop} {p : Logged} {e : IpHashEntry} {chain : List IpHashEntry} {k : Nat}
  {found : Found}

lemma ipHash_lt (len : Nat) (addr : List UInt8) : ipHash len addr < IP_HASH_SIZE := Nat.mod_lt _ (by decide)

lemma mem_entries : e ∈ t.entries ↔ ∃ k < IP_HASH_SIZE, e ∈ t.iph k := by
  rw [IpLog.entries, mem_flatMap]
  simp only [mem_range]

lemma IpInv.nodup (h : IpInv t) : (t.entries.map IpHashEntry.key).Nodup := by
  rw [IpLog.entries, map_flatMap, nodup_flatMap]
  refine ⟨fun k hk => (h k (mem_range.mp hk)).nodup, ?_⟩
  refine List.Pairwise.imp_of_mem (fun {k k'} hk hk' hne => ?_) (nodup_range)
  intro key hkey hkey'
  obtain ⟨e, he, rfl⟩ := mem_map.mp hkey
  obtain ⟨e', he', hsame⟩ := mem_map.mp hkey'
  have hplace := (h k (mem_range.mp hk)).place e he
  have hplace' := (h k' (mem_range.mp hk')).place e' he'
  rw [hsame, hplace] at hplace'
  exact hne hplace'

/-! ## The search -/

lemma goesOn_iff (he : e.ipaddr.length = e.len) :
    goesOn p e = true ↔ e.key ≠ p.key ∧ e.len = p.len ∧ e.vlan = p.vlan := by
  unfold goesOn
  rw [Bool.and_eq_true, Bool.and_eq_true, bne_iff_ne, beq_iff_eq, beq_iff_eq]
  constructor
  · rintro ⟨⟨haddr, hlen⟩, hvlan⟩
    refine ⟨fun hkey => haddr ?_, hlen, hvlan⟩
    have hsame : e.ipaddr = p.addr := congrArg (fun key => key.2.1) hkey
    rw [← hlen, ← he, take_length, hsame]
  rintro ⟨hkey, hlen, hvlan⟩
  refine ⟨⟨fun haddr => hkey ?_, hlen⟩, hvlan⟩
  rw [← hlen, ← he, take_length] at haddr
  unfold IpHashEntry.key Logged.key
  rw [hlen, haddr, hvlan]

lemma head_own_iff (hchain : ∀ e ∈ chain, e.ipaddr.length = e.len) :
    (∀ e, (chain.dropWhile (goesOn p)).head? = some e → e.key = p.key) ↔ ∀ e ∈ chain.takeWhile (other p), e.len =
    p.len ∧ e.vlan = p.vlan := by
  induction chain with
  | nil => exact ⟨fun _ e he => absurd he not_mem_nil, fun _ e he => absurd he (Option.not_mem_none e)⟩
  | cons a chain ih =>
    have ha := goesOn_iff (p := p) (hchain a mem_cons_self)
    have hrest := ih fun e he => hchain e (mem_cons_of_mem _ he)
    have hother : other p a = true ↔ a.key ≠ p.key := bne_iff_ne
    by_cases hgo : goesOn p a = true
    · obtain ⟨hkey, hlen, hvlan⟩ := ha.mp hgo
      rw [dropWhile_cons_of_pos hgo, hrest, takeWhile_cons_of_pos (hother.mpr hkey), forall_mem_cons]
      exact ⟨fun h => ⟨⟨hlen, hvlan⟩, h⟩, fun h => h.2⟩
    rw [dropWhile_cons_of_neg hgo, head?_cons]
    constructor
    · intro h
      have hkey : ¬other p a = true := fun hne => hother.mp hne (h a rfl)
      rw [takeWhile_cons_of_neg hkey]
      exact fun e he => absurd he not_mem_nil
    intro h e he
    cases he
    by_contra hkey
    rw [takeWhile_cons_of_pos (hother.mpr hkey), forall_mem_cons] at h
    exact hgo (ha.mpr ⟨hkey, h.1⟩)

lemma ChainInv.of_keys {chain' : List IpHashEntry} (h : ChainInv k chain)
    (hkeys : chain'.map IpHashEntry.key = chain.map IpHashEntry.key) : ChainInv k chain' := by
  have hold : ∀ e ∈ chain', ∃ e0 ∈ chain, e0.key = e.key := by
    intro e he
    have hkey : e.key ∈ chain'.map IpHashEntry.key := mem_map_of_mem he
    rw [hkeys] at hkey
    exact mem_map.mp hkey
  refine ⟨hkeys ▸ h.nodup, fun e he => ?_, fun e he => ?_⟩
  · obtain ⟨e0, he0, hkey⟩ := hold e he
    exact hkey ▸ h.place e0 he0
  obtain ⟨e0, he0, hkey⟩ := hold e he
  have hlen : e0.len = e.len := congrArg Prod.fst hkey
  have haddr : e0.ipaddr = e.ipaddr := congrArg (fun key => key.2.1) hkey
  rw [← hlen, ← haddr]
  exact h.len e0 he0

lemma update_key (p : Logged) (now : Int) (h : e.vlan = p.vlan) : (update p now e).key = e.key := by
  unfold update
  split_ifs
  · unfold IpHashEntry.key
    dsimp only
    rw [h]
  · rfl

lemma ChainInv.updated {rest : List IpHashEntry} (h : ChainInv k chain)
    (hdrop : chain.dropWhile (goesOn p) = e :: rest) (hkey : e.key = p.key) (now : Int) :
    ChainInv k (chain.takeWhile (goesOn p) ++ update p now e :: rest) := by
  refine h.of_keys ?_
  have hvlan : e.vlan = p.vlan := congrArg (fun key => key.2.2) hkey
  have hsplit : chain = chain.takeWhile (goesOn p) ++ e :: rest := by
    rw [← hdrop, takeWhile_append_dropWhile]
  conv_rhs => rw [hsplit]
  rw [map_append, map_append, map_cons, map_cons, update_key p now hvlan]

lemma ChainInv.added (h : ChainInv k chain) (hplace : keyHash p.key = k) (hlen : p.addr.length = p.len)
    (hnew : ∀ e ∈ chain, e.key ≠ p.key) (found : Found) :
    ChainInv k (update p found.now (newEntry p found) :: chain) := by
  have hkey : (update p found.now (newEntry p found)).key = p.key := update_key p found.now rfl
  have hpart : (update p found.now (newEntry p found)).len = p.len := congrArg Prod.fst hkey
  have haddr : (update p found.now (newEntry p found)).ipaddr = p.addr := congrArg (fun key => key.2.1) hkey
  refine ⟨?_, ?_, ?_⟩
  · rw [map_cons, hkey, nodup_cons]
    refine ⟨fun hmem => ?_, h.nodup⟩
    obtain ⟨e, he, hsame⟩ := mem_map.mp hmem
    exact hnew e he hsame
  · intro e he
    cases mem_cons.mp he with
    | inl hhead => rw [hhead, hkey, hplace]
    | inr htail => exact h.place e htail
  intro e he
  cases mem_cons.mp he with
  | inl hhead => rw [hhead, haddr, hpart, hlen]
  | inr htail => exact h.len e htail

lemma ChainInv.filter (h : ChainInv k chain) (keep : IpHashEntry → Bool) : ChainInv k (chain.filter keep) where
  nodup := h.nodup.sublist (filter_sublist.map _)
  place := fun e he => h.place e (mem_of_mem_filter he)
  len := fun e he => h.len e (mem_of_mem_filter he)

lemma IpInv.forAll (h : IpInv t) (deletes : IpHashEntry → Bool) : IpInv (ipForAllHash deletes t) := by
  intro k hk
  change ChainInv k (if k < IP_HASH_SIZE then (t.iph k).filter (fun e => !deletes e) else t.iph k)
  rw [if_pos hk]
  exact (h k hk).filter _

lemma IpInv.update {k' : Nat} {chain' : List IpHashEntry} (h : IpInv t) (hchain : ChainInv k' chain') :
    ∀ k, k < IP_HASH_SIZE → ChainInv k (Function.update t.iph k' chain' k) := by
  intro k hk
  by_cases hsame : k = k'
  · subst hsame
    rw [update_self]
    exact hchain
  rw [update_of_ne hsame]
  exact h k hk

/-! ## Packets -/

lemma IpInv.mem_chain (h : IpInv t) (he : e ∈ t.entries) (hkey : e.key = p.key) :
    e ∈ t.iph (ipHash p.len p.addr) := by
  obtain ⟨k, hk, hmem⟩ := mem_entries.mp he
  have hplace := (h k hk).place e hmem
  rw [hkey] at hplace
  change e ∈ t.iph (keyHash p.key)
  rwa [hplace]

lemma mem_entries_of_chain (he : e ∈ t.iph (ipHash p.len p.addr)) : e ∈ t.entries :=
  mem_entries.mpr ⟨_, ipHash_lt _ _, he⟩

lemma IpInv.isNews_of_none (h : IpInv t) (hnone : ∀ e ∈ t.iph (ipHash p.len p.addr), e.key ≠ p.key) :
    IsNews t p moved :=
  .inl fun e he hkey => hnone e (h.mem_chain he hkey) hkey

lemma IpInv.isNews_iff (h : IpInv t) (he : e ∈ t.entries) (hkey : e.key = p.key) :
    IsNews t p moved ↔ e.port ≠ p.port ∨ moved := by
  constructor
  · rintro (hnone | ⟨e', he', hkey', hchange⟩)
    · exact absurd hkey (hnone e he)
    have hsame : e' = e := inj_on_of_nodup_map h.nodup he' he (hkey'.trans hkey.symm)
    exact hsame ▸ hchange
  intro hchange
  exact .inr ⟨e, he, hkey, hchange⟩

lemma differs_iff (hkey : e.key = p.key) : differs p e = true ↔ e.port ≠ p.port ∨ e.srcmac ≠ p.srcmac := by
  have hvlan : (e.vlan != p.vlan) = false := by
    rw [bne_eq_false_iff_eq]
    exact congrArg (fun key => key.2.2) hkey
  rw [differs, hvlan, Bool.or_false, Bool.or_eq_true, bne_iff_ne, bne_iff_ne]

/-- The step logs a packet that has an entry by its port and by the six bytes. -/
lemma IpInv.isNews_iff_differs (h : IpInv t) (he : e ∈ t.entries) (hkey : e.key = p.key) :
    (IsNews t p moved ↔ differs p e = true) ↔ (e.port = p.port → (e.srcmac ≠ p.srcmac ↔ moved)) := by
  rw [h.isNews_iff he hkey, differs_iff hkey]
  constructor
  · intro hnews hport
    rwa [or_iff_right (not_not.mpr hport), or_iff_right (not_not.mpr hport), Iff.comm] at hnews
  intro htold
  by_cases hport : e.port = p.port
  · rw [htold hport]
  · exact ⟨fun _ => .inl hport, fun _ => .inl hport⟩

lemma dropWhile_eq_nil_keys (hchain : ∀ e ∈ chain, e.ipaddr.length = e.len) (hdrop : chain.dropWhile (goesOn p) = []) :
    ∀ e ∈ chain, e.key ≠ p.key := by
  intro e he
  have hgo := dropWhile_eq_nil_iff.mp hdrop e he
  exact ((goesOn_iff (hchain e he)).mp hgo).1

lemma lookup_none (hdrop : (t.iph (ipHash p.len p.addr)).dropWhile (goesOn p) = []) (halloc : found.alloc = false) :
    ipFindInHashUpdate t p found = t := by
  unfold ipFindInHashUpdate
  dsimp only
  rw [hdrop]
  dsimp only
  rw [if_neg (Bool.eq_false_iff.mp halloc)]

lemma lookup_found {rest : List IpHashEntry} (hdrop : (t.iph (ipHash p.len p.addr)).dropWhile (goesOn p) = e :: rest) :
    ipFindInHashUpdate t p found =
      { iph := Function.update t.iph (ipHash p.len p.addr)
          ((t.iph (ipHash p.len p.addr)).takeWhile (goesOn p) ++ update p found.now e :: rest)
        lines := if differs p e then t.lines ++ [p] else t.lines } := by
  unfold ipFindInHashUpdate
  dsimp only
  rw [hdrop]

lemma logged_iff {line : Bool} {news : Prop} :
    (((if line then t.lines ++ [p] else t.lines) = t.lines ++ [p] ∧ news) ∨
      ((if line then t.lines ++ [p] else t.lines) = t.lines ∧ ¬news)) ↔ (news ↔ line = true) := by
  cases line with
  | false => simp
  | true => simp

lemma Findable.right (hf : Findable t p found moved) (h : IpInv t) (hlen : p.addr.length = p.len) (hport : 0 ≤ p.port) :
    IpInv (ipFindInHashUpdate t p found) ∧ PacketRight t p found moved := by
  have hchain := h (ipHash p.len p.addr) (ipHash_lt _ _)
  have hown := (head_own_iff hchain.len).mpr hf.front
  have hused : usedEntry t p = ((t.iph (ipHash p.len p.addr)).dropWhile (goesOn p)).head? := rfl
  cases hdrop : (t.iph (ipHash p.len p.addr)).dropWhile (goesOn p) with
  | nil =>
    have hnone := dropWhile_eq_nil_keys hchain.len hdrop
    have halloc : found.alloc = true := by
      refine hf.room.resolve_left ?_
      rintro ⟨e, he, hkey⟩
      exact hnone e he hkey
    have hnew : differs p (newEntry p found) = true := by
      have hne : ((-1 : Int) != p.port) = true := by
        rw [bne_iff_ne]
        omega
      rw [differs]
      change ((-1 : Int) != p.port || _ || _) = true
      rw [hne]
      rfl
    have hstep : ipFindInHashUpdate t p found =
        { iph := Function.update t.iph (ipHash p.len p.addr)
            (update p found.now (newEntry p found) :: t.iph (ipHash p.len p.addr))
          lines := t.lines ++ [p] } := by
      unfold ipFindInHashUpdate
      dsimp only
      rw [hdrop]
      dsimp only
      rw [if_pos halloc, if_pos hnew]
    rw [hstep]
    refine ⟨h.update (hchain.added rfl hlen hnone found), ⟨hown, ?_⟩⟩
    rw [hstep]
    exact .inl ⟨rfl, h.isNews_of_none hnone⟩
  | cons e rest =>
    have hkey : e.key = p.key := by
      refine hown e ?_
      rw [hdrop]
      rfl
    have hmem : e ∈ t.iph (ipHash p.len p.addr) := by
      refine (dropWhile_suffix (goesOn p)).mem ?_
      rw [hdrop]
      exact mem_cons_self
    have hnews := (h.isNews_iff_differs (mem_entries_of_chain hmem) hkey).mpr (hf.told e hmem hkey)
    rw [lookup_found hdrop]
    refine ⟨h.update (hchain.updated hdrop hkey found.now), ⟨hown, ?_⟩⟩
    rw [lookup_found hdrop]
    exact logged_iff.mpr hnews

lemma PacketRight.findable (hright : PacketRight t p found moved) (h : IpInv t) : Findable t p found moved := by
  have hchain := h (ipHash p.len p.addr) (ipHash_lt _ _)
  have hfront := (head_own_iff hchain.len).mp hright.own
  have hlogged := hright.logged
  cases hdrop : (t.iph (ipHash p.len p.addr)).dropWhile (goesOn p) with
  | nil =>
    have hnone := dropWhile_eq_nil_keys hchain.len hdrop
    refine ⟨hfront, .inr ?_, fun e he hkey => absurd hkey (hnone e he)⟩
    -- without memory there is no line for the new address
    by_contra halloc
    rw [lookup_none hdrop (Bool.eq_false_iff.mpr halloc)] at hlogged
    cases hlogged with
    | inl hline =>
      have hlen := congrArg length hline.1
      rw [length_append, length_singleton] at hlen
      omega
    | inr hno => exact hno.2 (h.isNews_of_none hnone)
  | cons e rest =>
    have hmem : e ∈ t.iph (ipHash p.len p.addr) :=
      (dropWhile_suffix (goesOn p)).mem (hdrop ▸ mem_cons_self)
    have hkey : e.key = p.key := by
      refine hright.own e ?_
      rw [usedEntry, hdrop]
      rfl
    rw [lookup_found hdrop] at hlogged
    have htold := (h.isNews_iff_differs (mem_entries_of_chain hmem) hkey).mp (logged_iff.mp hlogged)
    refine ⟨hfront, .inl ⟨e, hmem, hkey⟩, fun e' he' hkey' => ?_⟩
    have hsame : e' = e := inj_on_of_nodup_map hchain.nodup he' hmem (hkey'.trans hkey.symm)
    exact hsame ▸ htold

lemma iplogPktin_spec {ranges : Ranges} {buf : Mem} {port : Int} (h : iplogPktin ranges buf port = some p) :
    p.addr.length = p.len ∧ p.port = port := by
  unfold iplogPktin at h
  dsimp only at h
  split_ifs at h
  all_goals
    cases h
    exact ⟨readBytes_length _ _ _, rfl⟩

def OneEntry (t : IpLog) : Prop := (t.entries.map IpHashEntry.key).Nodup

lemma IpInv.event {event : IpEvent} (h : IpInv w.log) (henabled : iplogMachine.enabled w event)
    (hok : EventOk w event) : IpInv (iplogMachine.step w event).log ∧ EventRight w event := by
  cases event with
  | portMinus port => exact ⟨h.forAll _, trivial⟩
  | gc now expire => exact ⟨h.forAll _, trivial⟩
  | pktin ranges buf port found =>
    unfold iplogMachine
    dsimp only
    cases hpacket : iplogPktin ranges buf port with
    | none => exact ⟨h, fun p hp => by cases hpacket.symm.trans hp⟩
    | some p =>
      obtain ⟨hlen, hport⟩ := iplogPktin_spec hpacket
      obtain ⟨hinv, hright⟩ := (hok p hpacket).right h hlen (hport ▸ henabled)
      refine ⟨hinv, fun p' hp' => ?_⟩
      cases hpacket.symm.trans hp'
      exact hright

/-- The plugin after its start. -/
def noEntries : Watched := ⟨⟨fun _ => [], []⟩, fun _ => []⟩

/-- With all packets, closed ports and garbage collections: there is one entry for each family, address and vlan, no
packet uses the entry of another one, and each packet that is news is logged and no other, as long as for each packet
the entries in front of its own have its length and its vlan, there is memory for a new one, and the bytes that are
taken for the source address change exactly when the address does. -/
theorem iplog_right_iff (events : List IpEvent) (h : iplogMachine.Along iplogMachine.enabled noEntries events) :
    iplogMachine.Always (fun w => OneEntry w.log) noEntries events ∧
    iplogMachine.Along EventRight noEntries events ↔ iplogMachine.Along EventOk noEntries events := by
  have hempty : IpInv noEntries.log := fun k _ =>
    ⟨nodup_nil, fun e he => absurd he not_mem_nil, fun e he => absurd he not_mem_nil⟩
  have hone : ∀ w : Watched, IpInv w.log → OneEntry w.log := fun w hw => hw.nodup
  refine Machine.always_and_along_iff (fun w => IpInv w.log) hone (fun w event hw he hok => hw.event he hok) ?_
    hempty events h
  rintro w event hw - hbad ⟨-, hright⟩
  cases event with
  | portMinus port => exact hbad trivial
  | gc now expire => exact hbad trivial
  | pktin ranges buf port found => exact hbad fun p hp => (hright p hp).findable hw

def allAddresses : Ranges := ⟨[⟨[0, 0, 0, 0], [0, 0, 0, 0]⟩], []⟩

def plainFrame : Mem := fun i =>
  [0, 0, 0, 0, 0, 2, 0, 0, 0, 0, 0, 1, 8, 0, 0x45, 0, 0, 0, 0, 0, 0, 0, 0, 0, 0, 0, 10, 0, 0, 1].getD i 0

def taggedFrame (station : UInt8) : Mem := fun i =>
  [0, 0, 0, 0, 0, 2, 0, 0, 0, station, 0, 1, 0x81, 0, 0, 5, 8, 0, 0x45, 0, 0, 0, 0, 0, 0, 0, 0, 0, 0, 0, 10, 0, 0,
    1].getD i 0

def atSecond (now : Int) : Found := ⟨now, true, [0, 0, 0, 0, 0, 0]⟩

/-- A station sends twice on port 1 and once on port 2, which is closed; then its address is seen in a vlan. -/
def movedStation : List IpEvent :=
  [.pktin allAddresses plainFrame 1 (atSecond 1), .pktin allAddresses plainFrame 1 (atSecond 2),
    .pktin allAddresses plainFrame 2 (atSecond 3), .portMinus 2, .pktin allAddresses (taggedFrame 0) 1 (atSecond 4)]

lemma movedStation_ok : iplogMachine.Along EventOk noEntries movedStation := by
  refine ⟨?_, ?_, ?_, trivial, ?_, trivial⟩
  all_goals
    intro p hp
    cases hp
    exact ⟨by decide, by decide, by decide⟩

theorem iplog_right_iff_movedStation : iplogMachine.Always (fun w => OneEntry w.log) noEntries movedStation ∧
    iplogMachine.Along EventRight noEntries movedStation :=
  (iplog_right_iff movedStation
    ⟨Int.one_nonneg, Int.one_nonneg, Int.natCast_nonneg 2, trivial, Int.one_nonneg, trivial⟩).mpr movedStation_ok

theorem vlans_share_entry :
    ¬(iplogMachine.Always (fun w => OneEntry w.log) noEntries
          [.pktin allAddresses plainFrame 1 (atSecond 1), .pktin allAddresses (taggedFrame 0) 1 (atSecond 2)] ∧
      iplogMachine.Along EventRight noEntries
        [.pktin allAddresses plainFrame 1 (atSecond 1), .pktin allAddresses (taggedFrame 0) 1 (atSecond 2)]) := by
  rintro ⟨-, -, hright, -⟩
  have hown := (hright ⟨4, [10, 0, 0, 1], [0, 1, 0x81, 0, 0, 5], 5, 1⟩ rfl).own
    ⟨1, 1, 0, [0, 0, 0, 0, 0, 1], 4, [10, 0, 0, 1]⟩ rfl
  exact absurd hown (by decide)

end Vde.Iplog
