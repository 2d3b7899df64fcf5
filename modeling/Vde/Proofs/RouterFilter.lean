import Vde.Proofs.RouterForward
import Mathlib.Data.List.Find

/-!
# Rules of the filter

The rules as they were given, the latest first, next to the table that the router keeps. A rule is
deleted without a look at its protocol, and its priority is never stored; besides, the priority that a
rule gave to a packet is overwritten before the packet is sent. As long as nobody depends on these, the
table does what the rules say.
-/

namespace Vde

open List

structure FilterRule where
  key : FilterKey
  action : FilterAction
  priority : BitVec 8

def Ip4Address.Contains (a : Ip4Address) (addr : BitVec 32) : Prop :=
  a.address = 0 ∨ addr &&& a.netmask = a.address &&& a.netmask

instance (a : Ip4Address) (addr : BitVec 32) : Decidable (a.Contains addr) :=
  inferInstanceAs (Decidable (_ ∨ _))

def FilterKey.SatisfiedBy (k : FilterKey) (buf : VdeBuff) : Prop :=
  (k.srcIface = none ∨ k.srcIface = some buf.src) ∧ (k.proto = 0 ∨ k.proto = buf.protocol) ∧
    (k.tos < 0 ∨ k.tos = buf.tos.toNat) ∧ k.saddr.Contains buf.saddr ∧ k.daddr.Contains buf.daddr ∧
    (k.sport = 0 ∨ k.sport = buf.transportSport) ∧ (k.dport = 0 ∨ k.dport = buf.transportDport)

instance (k : FilterKey) (buf : VdeBuff) : Decidable (k.SatisfiedBy buf) :=
  inferInstanceAs (Decidable (_ ∧ _ ∧ _ ∧ _ ∧ _ ∧ _ ∧ _))

def ruleFor (rules : List FilterRule) (buf : VdeBuff) : Option FilterRule :=
  rules.find? (fun r => decide (r.key.SatisfiedBy buf))

def FilterAction.stops : FilterAction → Bool
  | reject => true
  | drop => true
  | _ => false

structure FilterRun where
  table : List Filter
  rules : List FilterRule

/-- The calls that change the table; a packet changes the statistics. -/
inductive FilterEvent where
  | add (alloc : Bool) (garbage : BitVec 8) (key : FilterKey) (action : FilterAction) (priority : BitVec 8)
  | del (arg : FilterKey)
  | packet (alloc : Bool) (heap : Mem) (vif : Nat) (vb : VdeBuff) (net : RouterNet)

def RouterNet.withTable (net : RouterNet) (table : List Filter) : RouterNet :=
  { net with filteringTable := table }

def filterStep (r : FilterRun) : FilterEvent → FilterRun
  | .add alloc garbage key action priority =>
    { table := (vderFilterAdd alloc garbage key action priority r.table).2
      rules := if alloc then { key := key, action := action, priority := priority } :: r.rules else r.rules }
  | .del arg =>
    { table := (vderFilterDel arg r.table).2, rules := r.rules.eraseP (fun rule => decide (rule.key = arg)) }
  | .packet alloc heap vif vb net =>
    { r with table := (vderPacketRecv alloc heap vif vb (net.withTable r.table)).1.filteringTable }

def filterMachine : Machine FilterRun FilterEvent := { enabled := fun _ _ => True, step := filterStep }

def filterRunStart : FilterRun := { table := [], rules := [] }

/-- The part of a rule that decides about packets, apart from the priority. -/
def Filter.shape (f : Filter) : FilterKey × FilterAction := (f.key, f.action)

def FilterRule.shape (rule : FilterRule) : FilterKey × FilterAction := (rule.key, rule.action)

/-- The table holds the rules, a packet gets the verdict of the most recent rule that it satisfies, and
one that is sent on enters the queue of the priority that the rule was added with. -/
structure FilterRight (r : FilterRun) : Prop where
  table : r.table.map Filter.shape = r.rules.map FilterRule.shape
  verdict : ∀ buf, (vderFilter buf r.table).1 = ((ruleFor r.rules buf).map (fun rule => rule.action.stops)).getD false
  rejected : ∀ buf, (vderFilter buf r.table).2.2.2 ≠ [] ↔
    ∃ rule, ruleFor r.rules buf = some rule ∧ rule.action = .reject
  priority : ∀ (alloc : Bool) (heap : Mem) (vif : Nat) (vb : VdeBuff) (net : RouterNet) (rule : FilterRule),
    ntohs (load16 vb.data 12) = PTYPE_IP →
    ruleFor r.rules { vb with src := vif } = some rule → rule.action = .priority → ∀ iface sent,
      .enqueue iface sent ∈ (vderPacketRecv alloc heap vif vb (net.withTable r.table)).2 →
        sent.priority = rule.priority

/-- A deletion says whether there was a rule equal to its arguments. -/
def DelReports (r : FilterRun) : FilterEvent → Prop
  | .del arg =>
    (vderFilterDel arg r.table).1 =
      if r.rules.any (fun rule => decide (rule.key = arg)) then ⟨0, none⟩ else ⟨-1, some .enoent⟩
  | _ => True

/-- A rule whose type of service is a byte, whose networks have no host bits, and which gives no
priority but that of all packets. -/
structure FilterRule.Plain (rule : FilterRule) : Prop where
  tos : rule.key.tos < 256
  saddr : rule.key.saddr.netmask &&& rule.key.saddr.address = rule.key.saddr.address
  daddr : rule.key.daddr.netmask &&& rule.key.daddr.address = rule.key.daddr.address
  priority : rule.action = .priority → rule.priority = PRIO_BESTEFFORT

def FilterOk (r : FilterRun) : FilterEvent → Prop
  | .add alloc _ key action priority => alloc = true → FilterRule.Plain ⟨key, action, priority⟩
  | .del arg => ∀ rule, r.rules.find? (fun rule => rule.key.sameRule arg) = some rule → rule.key.proto = arg.proto
  | .packet _ _ _ _ _ => True

structure FilterInv (r : FilterRun) : Prop where
  table : r.table.map Filter.shape = r.rules.map FilterRule.shape
  plain : ∀ rule ∈ r.rules, rule.Plain

section Selection

variable {buf : VdeBuff} {table : List Filter} {rules : List FilterRule}

lemma selectFilter_fst : (selectFilter buf table).1 = table.find? (fun cur => cur.key.selects buf) := by
  induction table with
  | nil => rfl
  | cons cur rest ih =>
    rw [selectFilter, find?_cons]
    by_cases hsel : cur.key.selects buf = true
    · rw [if_pos hsel, hsel]
    rw [if_neg hsel, ih]
    rw [Bool.not_eq_true] at hsel
    rw [hsel]

lemma selectFilter_shape : (selectFilter buf table).2.map Filter.shape = table.map Filter.shape := by
  induction table with
  | nil => rfl
  | cons cur rest ih =>
    rw [selectFilter]
    split
    · rfl
    · simpa using ih

lemma vderFilter_table : (vderFilter buf table).2.2.1 = (selectFilter buf table).2 := by
  simp only [vderFilter]
  cases (selectFilter buf table).1 with
  | none => rfl
  | some rule =>
    obtain ⟨key, action, priority, statsPackets, statsBytes⟩ := rule
    cases action <;> rfl

lemma Ip4Address.selects_iff {a : Ip4Address} (h : a.netmask &&& a.address = a.address) (addr : BitVec 32) :
    a.selects addr = true ↔ a.Contains addr := by
  rw [Ip4Address.selects, Ip4Address.Contains, Bool.or_eq_true, beq_iff_eq, beq_iff_eq,
    BitVec.and_comm addr, BitVec.and_comm a.address, h]
  constructor
  · rintro (hzero | heq)
    · exact .inl hzero
    · exact .inr heq.symm
  rintro (hzero | heq)
  · exact .inl hzero
  · exact .inr heq.symm

lemma FilterRule.Plain.selects_iff {rule : FilterRule} (h : rule.Plain) (buf : VdeBuff) :
    rule.key.selects buf = true ↔ rule.key.SatisfiedBy buf := by
  have htos : (decide (rule.key.tos < 0) || BitVec.ofInt 8 rule.key.tos == buf.tos) = true ↔
      rule.key.tos < 0 ∨ rule.key.tos = buf.tos.toNat := by
    rw [Bool.or_eq_true, decide_eq_true_iff, beq_iff_eq]
    by_cases hneg : rule.key.tos < 0
    · exact iff_of_true (.inl hneg) (.inl hneg)
    have hlt := h.tos
    have hval : (BitVec.ofInt 8 rule.key.tos).toNat = rule.key.tos.toNat := by
      rw [BitVec.toNat_ofInt]
      omega
    rw [or_iff_right hneg, or_iff_right hneg, ← BitVec.toNat_inj, hval]
    omega
  rw [FilterKey.selects, FilterKey.SatisfiedBy]
  simp only [Bool.and_eq_true, htos, Ip4Address.selects_iff h.saddr, Ip4Address.selects_iff h.daddr]
  simp only [Bool.or_eq_true, beq_iff_eq, and_assoc]

lemma selectFilter_rule (buf : VdeBuff) (h : table.map Filter.shape = rules.map FilterRule.shape)
    (hplain : ∀ rule ∈ rules, rule.Plain) :
    (selectFilter buf table).1.map Filter.shape = (ruleFor rules buf).map FilterRule.shape := by
  have hselects : ruleFor rules buf = rules.find? (fun rule => rule.key.selects buf) := by
    apply find?_congr
    intro rule hrule
    rw [Bool.eq_iff_iff, decide_eq_true_iff, (hplain rule hrule).selects_iff]
  have htable := find?_map (f := Filter.shape) (p := fun k => k.1.selects buf) (l := table)
  have hrules := find?_map (f := FilterRule.shape) (p := fun k => k.1.selects buf) (l := rules)
  rw [selectFilter_fst, hselects]
  exact htable.symm.trans ((congrArg _ h).trans hrules)

lemma vderFilter_verdict :
    (vderFilter buf table).1 =
        (((selectFilter buf table).1.map Filter.shape).map (fun k => k.2.stops)).getD false ∧
      ((vderFilter buf table).2.2.2 ≠ [] ↔
        ∃ k, (selectFilter buf table).1.map Filter.shape = some k ∧ k.2 = .reject) := by
  simp only [vderFilter]
  cases (selectFilter buf table).1 with
  | none => simp
  | some rule =>
    obtain ⟨key, action, priority, statsPackets, statsBytes⟩ := rule
    cases action <;> simp [Filter.shape, FilterAction.stops]

lemma vderPacketRecv_priority {net : RouterNet} {vb : VdeBuff} {alloc : Bool} {heap : Mem} {vif iface : Nat}
    {sent : VdeBuff} (hip : ntohs (load16 vb.data 12) = PTYPE_IP)
    (h : .enqueue iface sent ∈ (vderPacketRecv alloc heap vif vb net).2) : sent.priority = PRIO_BESTEFFORT := by
  obtain ⟨-, -, hquiet⟩ := vderFilter_frame { vb with src := vif } net.filteringTable
  rcases hf : vderFilter { vb with src := vif } net.filteringTable with ⟨stopped, buf, table, calls⟩
  rw [hf] at hquiet
  rw [vderPacketRecv_ip alloc heap vif hip hf] at h
  split at h
  · exact absurd h not_mem_nil
  split at h
  · exact absurd h (hquiet iface sent)
  rcases mem_append.mp h with h | h
  · exact absurd h (hquiet iface sent)
  simp only [handlePacket] at h
  split at h
  · -- the calls for a packet of the router itself
    simp only [vderIpInput] at h
    split at h
    · exact absurd h not_mem_nil
    rcases mem_append.mp h with h | h
    · split at h
      · simp at h
      · split at h <;> simp at h
    · split at h <;> simp at h
  obtain ⟨-, ro, ae, -, -, -, rfl⟩ := (forwardPacket_enqueue _ _ _ _).mp h
  rfl

end Selection

section Steps

variable {r : FilterRun}

lemma FilterInv.right (h : FilterInv r) : FilterRight r := by
  have hrule (buf : VdeBuff) := selectFilter_rule buf h.table h.plain
  refine ⟨h.table, ?_, ?_, ?_⟩
  · intro buf
    rw [vderFilter_verdict.1, hrule, Option.map_map]
    rfl
  · intro buf
    rw [vderFilter_verdict.2, hrule]
    constructor
    · rintro ⟨k, hk, hreject⟩
      obtain ⟨rule, hfor, rfl⟩ := Option.map_eq_some_iff.mp hk
      exact ⟨rule, hfor, hreject⟩
    rintro ⟨rule, hfor, hreject⟩
    exact ⟨rule.shape, by rw [hfor]; rfl, hreject⟩
  intro alloc heap vif vb net rule hip hfor haction iface sent hmem
  rw [vderPacketRecv_priority hip hmem, (h.plain rule (mem_of_find?_eq_some hfor)).priority haction]

lemma eraseP_eq_of_imp {α : Type} {p q : α → Bool} {xs : List α} (himp : ∀ x, q x = true → p x = true)
    (hfirst : ∀ x, xs.find? p = some x → q x = true) : xs.eraseP p = xs.eraseP q ∧ xs.any p = xs.any q := by
  induction xs with
  | nil => exact ⟨rfl, rfl⟩
  | cons x xs ih =>
    by_cases hp : p x = true
    · have hq : q x = true := hfirst x (find?_cons_of_pos hp)
      rw [eraseP_cons_of_pos hp, eraseP_cons_of_pos hq, any_cons, any_cons, hp, hq]
      exact ⟨rfl, rfl⟩
    have hq : ¬q x = true := fun hq => hp (himp x hq)
    rw [find?_cons_of_neg hp] at hfirst
    obtain ⟨herase, hany⟩ := ih hfirst
    rw [eraseP_cons_of_neg hp, eraseP_cons_of_neg hq, herase, any_cons, any_cons, hany]
    simp [hp, hq]

lemma sameRule_iff {k arg : FilterKey} : k = arg ↔ k.sameRule arg = true ∧ k.proto = arg.proto := by
  obtain ⟨srcIface, proto, ⟨sa, sm⟩, ⟨da, dm⟩, tos, sport, dport⟩ := k
  obtain ⟨srcIface', proto', ⟨sa', sm'⟩, ⟨da', dm'⟩, tos', sport', dport'⟩ := arg
  simp only [FilterKey.mk.injEq, Ip4Address.mk.injEq, FilterKey.sameRule, Bool.and_eq_true, beq_iff_eq]
  tauto

lemma vderFilterDel_eq (arg : FilterKey) (table : List Filter) :
    vderFilterDel arg table =
      (if (table.map Filter.shape).any (fun k => k.1.sameRule arg) then ⟨0, none⟩ else ⟨-1, some .enoent⟩,
        table.eraseP (fun search => search.key.sameRule arg)) := by
  have hmap : (table.map Filter.shape).any (fun k => k.1.sameRule arg) =
      table.any (fun search => search.key.sameRule arg) := any_map
  rw [vderFilterDel, hmap]
  split
  · rfl
  rename_i hany
  rw [eraseP_of_forall_not]
  intro f hf hsame
  exact hany (any_eq_true.mpr ⟨f, hf, hsame⟩)

lemma filterStep_del (h : FilterInv r) (arg : FilterKey) (hok : FilterOk r (.del arg)) :
    FilterInv (filterStep r (.del arg)) ∧ DelReports r (.del arg) := by
  have himp (rule : FilterRule) (heq : decide (rule.key = arg) = true) : rule.key.sameRule arg = true :=
    (sameRule_iff.mp (decide_eq_true_iff.mp heq)).1
  obtain ⟨herase, hany⟩ := eraseP_eq_of_imp himp (fun rule hfirst => by
    rw [decide_eq_true_iff, sameRule_iff]
    exact ⟨by simpa using find?_some hfirst, hok rule hfirst⟩)
  constructor
  · refine ⟨?_, ?_⟩
    · have htable := eraseP_map (f := Filter.shape) (p := fun k => k.1.sameRule arg) (l := r.table)
      have hrules := eraseP_map (f := FilterRule.shape) (p := fun k => k.1.sameRule arg) (l := r.rules)
      simp only [filterStep, vderFilterDel_eq, ← herase]
      exact htable.symm.trans ((congrArg _ h.table).trans hrules)
    intro rule hrule
    exact h.plain rule (mem_of_mem_eraseP hrule)
  simp only [DelReports, vderFilterDel_eq, ← hany, h.table, any_map]
  rfl

lemma filterStep_packet (h : FilterInv r) (alloc : Bool) (heap : Mem) (vif : Nat) (vb : VdeBuff)
    (net : RouterNet) : FilterInv (filterStep r (.packet alloc heap vif vb net)) := by
  refine ⟨Eq.trans ?_ h.table, h.plain⟩
  simp only [filterStep, vderPacketRecv]
  split
  · rfl
  split
  · rfl
  split
  · have htable : ((vderFilter { vb with src := vif } r.table).2.2.1).map Filter.shape =
        r.table.map Filter.shape := by
      rw [vderFilter_table, selectFilter_shape]
    split
    · exact htable
    · exact htable
  · rfl

lemma filterStep_right (h : FilterInv r) (e : FilterEvent) (hok : FilterOk r e) :
    FilterInv (filterStep r e) ∧ DelReports r e := by
  cases e with
  | add alloc garbage key action priority =>
    cases alloc with
    | false => exact ⟨⟨h.table, h.plain⟩, trivial⟩
    | true =>
      refine ⟨⟨?_, ?_⟩, trivial⟩
      · simpa [filterStep, vderFilterAdd, Filter.shape, FilterRule.shape] using h.table
      intro rule hrule
      rcases mem_cons.mp hrule with rfl | hrule
      · exact hok rfl
      · exact h.plain rule hrule
  | del arg => exact filterStep_del h arg hok
  | packet alloc heap vif vb net => exact ⟨filterStep_packet h alloc heap vif vb net, trivial⟩

end Steps

/-- In every run of additions, deletions and packets whose rules are plain and whose deletions find the
protocol they name, the table holds the rules, each deletion removes the most recent rule equal to its
arguments or reports that there is none, and packets are treated as the rules say. -/
theorem filter_runs_right (es : List FilterEvent) (hes : filterMachine.Along FilterOk filterRunStart es) :
    filterMachine.Always FilterRight filterRunStart es ∧ filterMachine.Along DelReports filterRunStart es :=
  Machine.Along.always_and_along FilterInv (fun _ h => h.right) (fun _ e h hok => filterStep_right h e hok)
    ⟨rfl, fun _ h => absurd h not_mem_nil⟩ hes

def protoKey (proto : BitVec 8) : FilterKey :=
  { srcIface := none, proto := proto, saddr := ⟨0, 0⟩, daddr := ⟨0, 0⟩, tos := -1, sport := 0, dport := 0 }

theorem filter_runs_right_icmp :
    filterMachine.Always FilterRight filterRunStart
        [.add true 0 (protoKey PROTO_ICMP) .drop 0, .del (protoKey PROTO_ICMP)] ∧
      filterMachine.Along DelReports filterRunStart
        [.add true 0 (protoKey PROTO_ICMP) .drop 0, .del (protoKey PROTO_ICMP)] := by
  apply filter_runs_right
  refine ⟨fun _ => ⟨by decide, by decide, by decide, by decide⟩, ?_, trivial⟩
  intro rule hrule
  have hmem := mem_of_find?_eq_some hrule
  obtain rfl := mem_singleton.mp hmem
  rfl

/-- A rule for UDP and then one for ICMP are added; the deletion of the first removes the second. -/
theorem filter_del_wrong_rule :
    ¬FilterRight (filterMachine.run filterRunStart
      [.add true 0 (protoKey PROTO_UDP) .drop 0, .add true 0 (protoKey PROTO_ICMP) .drop 0,
        .del (protoKey PROTO_UDP)]) := by
  intro h
  exact absurd h.table (by decide)

end Vde
