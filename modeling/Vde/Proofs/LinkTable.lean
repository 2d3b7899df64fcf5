import Vde.Autolink

/-!
# The link table of vde_autolink

Two commands break the table. `alinkdeltypelink` returns after the first host and leaves the type with the others.
`alinklinkonoff` goes back to the wires of the first host and leaves `connhost` where it was, so the two only agree when
that was the first host or `alink_try` moves on from there at once. Links without wires or hosts, and hosts that are freed
one by one though they were copied together, stop the program.
-/

namespace Vde.Alink

variable {al : Autolink} {k m : List Alwire} {w : Alwire} {now : Int}

/-! ### Wires -/

namespace Autolink

def types (al : Autolink) : List (List (List UInt8)) := al.wires.map fun ws => ws.map Alwire.type

def addrs (al : Autolink) : List (List Nat) := al.wires.map fun ws => ws.map Alwire.addr

def SameTypes (al : Autolink) : Prop :=
  al.types.length = al.hosts.length ∧ ∃ ts, ts.Nodup ∧ ∀ row ∈ al.types, row = ts

def Connected (al : Autolink) : Prop :=
  al.enabled = true → al.connwire ≠ 0 ∧ ∃ row, al.addrs[al.connhost]? = some row ∧ al.connwire ∈ row

/-- What holds whether the link is enabled or not. -/
structure Wired (al : Autolink) : Prop where
  same : al.SameTypes
  nodup : al.addrs.flatten.Nodup
  nonzero : 0 ∉ al.addrs.flatten
  host : al.hosts ≠ [] → al.connhost < al.hosts.length

end Autolink

open Autolink List Function Option

lemma disjoint_rows {L : List (List Nat)} {i j x : Nat} {r r' : List Nat} (h : L.flatten.Nodup) (hi : L[i]? = some r)
    (hj : L[j]? = some r') (hx : x ∈ r) (hx' : x ∈ r') : i = j := by
  have hpair := pairwise_iff_getElem.mp (nodup_flatten.mp h).2
  obtain ⟨hilt, hi⟩ := List.getElem?_eq_some_iff.mp hi
  obtain ⟨hjlt, hj⟩ := List.getElem?_eq_some_iff.mp hj
  rcases Nat.lt_trichotomy i j with hlt | heq | hlt
  · exact absurd hx' (hj ▸ hpair i j hilt hjlt hlt (hi.symm ▸ hx))
  · exact heq
  · exact absurd hx (hi ▸ hpair j i hjlt hilt hlt (hj.symm ▸ hx'))

variable {ws : List Alwire}

lemma wireAt_eq_none {a : Nat} (h : a ∉ ws.map Alwire.addr) : wireAt a ws = none := by
  induction ws with
  | nil => rfl
  | cons w ws ih =>
    rw [map_cons, mem_cons, not_or] at h
    rw [wireAt, if_neg (Ne.symm h.1), ih h.2]

lemma wireAt_eq (h : w.addr ∉ k.map Alwire.addr) : wireAt w.addr (k ++ w :: m) = some (w, m.head?) := by
  induction k with
  | nil => rw [nil_append, wireAt, if_pos rfl]
  | cons v k ih =>
    rw [map_cons, mem_cons, not_or] at h
    rw [cons_append, wireAt, if_neg (Ne.symm h.1), ih h.2]

lemma wire_eq (h : al.Wired) (hrow : k ++ w :: m ∈ al.wires) : al.wire w.addr = some (w, m.head?) := by
  obtain ⟨front, back, hwires⟩ := append_of_mem hrow
  have hnodup := h.nodup
  rw [addrs, hwires, map_append, map_cons, flatten_append, flatten_cons, nodup_append,
    map_append, map_cons] at hnodup
  obtain ⟨-, hback, hdisjoint⟩ := hnodup
  have hfront : front.findSome? (wireAt w.addr) = none := by
    rw [findSome?_eq_none_iff]
    intro ws hws
    refine wireAt_eq_none fun hmem => hdisjoint w.addr ?_ w.addr ?_ rfl
    · exact mem_flatten.mpr ⟨_, mem_map_of_mem hws, hmem⟩
    · exact mem_append_left _ (mem_append_right _ mem_cons_self)
  have hk : w.addr ∉ k.map Alwire.addr := fun hmem =>
    (nodup_append.mp (nodup_append.mp hback).1).2.2 _ hmem _ mem_cons_self rfl
  rw [Autolink.wire, hwires, findSome?_append, hfront, findSome?_cons, wireAt_eq hk]
  rfl

lemma mark_addrs (now : Int) (al : Autolink) : (al.mark now).addrs = al.addrs := by
  simp only [addrs, mark, List.map_map]
  refine map_congr_left fun ws _ => ?_
  simp only [comp_apply, List.map_map]
  refine map_congr_left fun w _ => ?_
  simp only [comp_apply]
  split <;> rfl

lemma mark_types (now : Int) (al : Autolink) : (al.mark now).types = al.types := by
  simp only [types, mark, List.map_map]
  refine map_congr_left fun ws _ => ?_
  simp only [comp_apply, List.map_map]
  refine map_congr_left fun w _ => ?_
  simp only [comp_apply]
  split <;> rfl

structure SameLink (al al' : Autolink) : Prop where
  types : al'.types = al.types
  addrs : al'.addrs = al.addrs
  hosts : al'.hosts = al.hosts
  name : al'.name = al.name
  enabled : al'.enabled = al.enabled

lemma SameLink.mark (al : Autolink) (now : Int) : SameLink al (al.mark now) :=
  ⟨mark_types now al, mark_addrs now al, rfl, rfl, rfl⟩

lemma SameLink.wired {al' : Autolink} (h : SameLink al al') (hal : al.Wired)
    (hhost : al.hosts ≠ [] → al'.connhost < al.hosts.length) : al'.Wired := by
  refine ⟨?_, ?_, ?_, ?_⟩
  · rw [SameTypes, h.types, h.hosts]
    exact hal.same
  · rw [h.addrs]
    exact hal.nodup
  · rw [h.addrs]
    exact hal.nonzero
  · rw [h.hosts]
    exact hhost

def OnWire (al : Autolink) (host a : Nat) : Prop := ∃ row, al.addrs[host]? = some row ∧ a ∈ row

lemma onWire_of {host : Nat} (h : al.wires[host]? = some (k ++ w :: m)) {v : Alwire} (hv : v ∈ k ++ w :: m) :
    OnWire al host v.addr := by
  refine ⟨_, ?_, mem_map_of_mem hv⟩
  rw [addrs, getElem?_map, h]
  rfl

lemma Autolink.Wired.first_wire (h : al.Wired) (hrow : k ++ w :: m ∈ al.wires) {c : Nat} (hc : c < al.hosts.length) :
    ∃ v ws, al.wires[c]? = some (v :: ws) := by
  obtain ⟨hlen, ts, -, hsame⟩ := h.same
  rw [types, length_map] at hlen
  have hrow' := hsame _ (mem_map_of_mem hrow)
  have hc' : c < al.wires.length := hlen ▸ hc
  have hother := hsame _ (mem_map_of_mem (getElem_mem hc'))
  rw [← hrow'] at hother
  cases hws : al.wires[c] with
  | nil =>
    rw [hws] at hother
    have hzero := congrArg length hother
    simp at hzero
  | cons v ws => exact ⟨v, ws, by rw [getElem?_eq_getElem hc', hws]⟩

lemma settled (p : Prop) [Decidable p] (now : Int) (al : Autolink) : ∃ al',
    (if p then some al else some (al.mark now)) = some al' ∧ SameLink al al' ∧ al'.connhost = al.connhost ∧
    al'.connwire = al.connwire := by
  by_cases hp : p
  · rw [if_pos hp]
    exact ⟨al, rfl, ⟨rfl, rfl, rfl, rfl, rfl⟩, rfl, rfl⟩
  rw [if_neg hp]
  exact ⟨_, rfl, SameLink.mark al now, rfl, rfl⟩

lemma alinkTry_spec (h : al.Wired) (hrow : k ++ w :: m ∈ al.wires) (hconn : al.connwire = w.addr) (now : Int) :
    ∃ al', al.alinkTry now = some al' ∧ SameLink al al' ∧
      (¬(m = [] ∧ w.lastTry > now - CHANGEWIRETIME) ∧ al'.connhost = al.connhost ∧ (∃ v ∈ w :: m, al'.connwire = v.addr) ∨
        (m = [] ∧ w.lastTry > now - CHANGEWIRETIME) ∧ al'.connhost < al.hosts.length ∧
          OnWire al al'.connhost al'.connwire) := by
  rw [alinkTry, hconn, wire_eq h hrow]
  simp only [bind, Option.bind]
  by_cases hrecent : w.lastTry > now - CHANGEWIRETIME
  · rw [if_pos hrecent]
    cases m with
    | nil =>
      have hlen : 0 < al.hosts.length := by
        rw [← h.same.1, types, length_map]
        exact length_pos_of_mem hrow
      have hc : (if al.connhost + 1 < al.hosts.length then al.connhost + 1 else 0) < al.hosts.length := by
        split <;> assumption
      obtain ⟨v, ws, hv⟩ := h.first_wire hrow hc
      have hwire := @wire_eq al [] ws v h (mem_of_getElem? hv)
      simp only [head?_nil, Autolink.move, hv, Option.map_some, firstWire]
      let moved : Autolink := { al with
        connhost := if al.connhost + 1 < al.hosts.length then al.connhost + 1 else 0
        connwire := v.addr }
      obtain ⟨al', hset, hsame, hhost, hconn'⟩ := settled (v.oldtry > now - SLEEPWIRETIME) now moved
      have hwire' : moved.wire v.addr = some (v, ws.head?) := hwire
      refine ⟨al', ?_, ⟨hsame.1, hsame.2, hsame.3, hsame.4, hsame.5⟩, .inr ⟨⟨trivial, hrecent⟩, ?_, ?_⟩⟩
      · rw [hwire']
        exact hset
      · rw [hhost]
        exact hc
      rw [hhost, hconn']
      exact @onWire_of al [] ws v _ hv v mem_cons_self
    | cons v m =>
      have hall : k ++ w :: v :: m = (k ++ [w]) ++ v :: m := by rw [append_assoc, singleton_append]
      have hwire := @wire_eq al (k ++ [w]) m v h (hall ▸ hrow)
      simp only [head?_cons, Autolink.move]
      let moved : Autolink := { al with connwire := v.addr }
      obtain ⟨al', hset, hsame, hhost, hconn'⟩ := settled (v.oldtry > now - SLEEPWIRETIME) now moved
      have hwire' : moved.wire v.addr = some (v, m.head?) := hwire
      refine ⟨al', ?_, ⟨hsame.1, hsame.2, hsame.3, hsame.4, hsame.5⟩, .inl ⟨fun hm => (nomatch hm.1), hhost, v, ?_, hconn'⟩⟩
      · rw [hwire']
        exact hset
      · exact mem_cons_of_mem _ mem_cons_self
  · rw [if_neg hrecent]
    exact ⟨_, rfl, SameLink.mark al now, .inl ⟨fun hm => hrecent hm.2, rfl, w, mem_cons_self, hconn⟩⟩

lemma exists_wire {host a : Nat} (h : OnWire al host a) :
    ∃ k w m, al.wires[host]? = some (k ++ w :: m) ∧ a = w.addr := by
  obtain ⟨row, hrow, ha⟩ := h
  rw [addrs, getElem?_map, map_eq_some_iff] at hrow
  obtain ⟨ws, hws, rfl⟩ := hrow
  obtain ⟨w, hw, rfl⟩ := mem_map.mp ha
  obtain ⟨k, m, rfl⟩ := append_of_mem hw
  exact ⟨k, w, m, hws, rfl⟩

lemma connected_of {al' : Autolink} (hal : al.Wired) (hsame : SameLink al al') (h : OnWire al al'.connhost al'.connwire) :
    al'.Connected := by
  obtain ⟨row, hrow, hmem⟩ := h
  intro _
  refine ⟨fun hzero => hal.nonzero ?_, row, ?_, hmem⟩
  · exact mem_flatten.mpr ⟨row, mem_of_getElem? hrow, hzero ▸ hmem⟩
  rw [hsame.addrs]
  exact hrow

lemma alinkTry_kept (h : al.Wired) (hon : OnWire al al.connhost al.connwire) (now : Int) :
    ∃ al', al.alinkTry now = some al' ∧ SameLink al al' ∧ al'.Wired ∧ al'.Connected := by
  obtain ⟨k, w, m, hrow, hconn⟩ := exists_wire hon
  obtain ⟨al', htry, hsame, hcases⟩ := alinkTry_spec h (mem_of_getElem? hrow) hconn now
  refine ⟨al', htry, hsame, ?_⟩
  obtain ⟨-, hhost, v, hv, hwire⟩ | ⟨-, hlt, hother⟩ := hcases
  · refine ⟨hsame.wired h fun hne => hhost ▸ h.host hne, connected_of h hsame ?_⟩
    rw [hhost, hwire]
    exact onWire_of hrow (mem_append_right k hv)
  · exact ⟨hsame.wired h fun _ => hlt, connected_of h hsame hother⟩

lemma enabled_iff (h : al.Wired) (hrow : al.wires[0]? = some (w :: ws)) (now : Int) :
    ∃ al', { al with enabled := true, connwire := w.addr }.alinkTry now = some al' ∧ al'.Wired ∧ al'.name = al.name ∧
      (al'.Connected ↔ al.connhost = 0 ∨ ws = [] ∧ w.lastTry > now - CHANGEWIRETIME) := by
  have hset : Autolink.Wired { al with enabled := true, connwire := w.addr } := ⟨h.1, h.2, h.3, h.4⟩
  obtain ⟨al', htry, hsame, hcases⟩ :=
    @alinkTry_spec { al with enabled := true, connwire := w.addr } [] ws w hset (mem_of_getElem? hrow) rfl now
  refine ⟨al', htry, ?_, hsame.name, ?_⟩
  · refine hsame.wired hset fun hne => ?_
    obtain ⟨-, hhost, -⟩ | ⟨-, hlt, -⟩ := hcases
    · rw [hhost]
      exact h.host hne
    · exact hlt
  obtain ⟨hstay, hhost, v, hv, hwire⟩ | ⟨hmove, -, hother⟩ := hcases
  · have hon : OnWire al 0 v.addr := @onWire_of al [] ws w 0 hrow v hv
    constructor
    · intro hconnected
      obtain ⟨-, row, hrow', hmem⟩ := hconnected hsame.enabled
      obtain ⟨first, hfirst, hin⟩ := hon
      rw [hsame.addrs, hhost] at hrow'
      rw [hwire] at hmem
      exact .inl (disjoint_rows h.nodup hrow' hfirst hmem hin)
    intro hcond
    refine connected_of hset hsame ?_
    rw [hhost, hwire]
    change OnWire al al.connhost v.addr
    rw [hcond.resolve_right hstay]
    exact hon
  · exact ⟨fun _ => .inr hmove, fun _ => connected_of hset hsame hother⟩

/-! ### Commands on one link -/

structure TableAt (s : LinkHeap) (l : List Nat) : Prop where
  linked : s.Linked l
  links : ∀ a ∈ l, (s.val a).Wired ∧ (s.val a).Connected

/-- The table is a list without freed links, and in each of them the hosts have the same types, each once, and the wire
of an enabled link is one of those of its host. -/
def HeapRight (s : LinkHeap) : Prop := ∃ l, s.Linked l ∧ ∀ a ∈ l, (s.val a).SameTypes ∧ (s.val a).Connected

/-- A command leaves a table, and the same one if it returns an error. -/
def Good (s : LinkHeap) (o : Option Outcome) : Prop :=
  ∃ s' err l, o = some (s', err) ∧ TableAt s' l ∧ (err ≠ .ok → s' = s)

def Bad (o : Option Outcome) : Prop := ∀ s' err, o = some (s', err) → ¬HeapRight s'

variable {s : LinkHeap} {l : List Nat} {a : Nat} {arg : List UInt8}

lemma TableAt.right (h : TableAt s l) : HeapRight s := ⟨l, h.linked, fun a ha => ⟨(h.links a ha).1.same, (h.links a ha).2⟩⟩

lemma TableAt.same (h : TableAt s l) (err : Errno) : Good s (some (s, err)) := ⟨s, err, l, rfl, h, fun _ => rfl⟩

lemma Bad.none : Bad none := fun _ _ h => nomatch h

lemma set_val (P : Autolink → Prop) (ha : a ∈ l) (al : Autolink) (h : ∀ b ∈ l, b ≠ a → P (s.val b)) :
    (∀ b ∈ l, P ((s.put a ⟨al, s.next a⟩).val b)) ↔ P al := by
  constructor
  · intro hall
    have hself := hall a ha
    rw [LinkedHeap.val, LinkedHeap.put_self] at hself
    exact hself
  intro hal b hb
  by_cases hne : b = a
  · rw [hne, LinkedHeap.val, LinkedHeap.put_self]
    exact hal
  rw [LinkedHeap.val, LinkedHeap.put_of_ne hne]
  exact h b hb hne

lemma TableAt.setVal (h : TableAt s l) (ha : a ∈ l) (al : Autolink) :
    s.setVal a al = some (s.put a ⟨al, s.next a⟩) := LinkedHeap.store_eq (h.linked.live a ha) _

lemma TableAt.set (h : TableAt s l) (ha : a ∈ l) (al : Autolink) (hal : al.Wired ∧ al.Connected) :
    Good s ((s.setVal a al).map fun s => (s, .ok)) := by
  rw [h.setVal ha]
  exact ⟨_, .ok, l, rfl, ⟨h.linked.setVal a al,
    (set_val (fun al => al.Wired ∧ al.Connected) ha al fun b hb _ => h.links b hb).mpr hal⟩, fun hne => absurd rfl hne⟩

lemma TableAt.set_bad (h : TableAt s l) (ha : a ∈ l) (al : Autolink) (hal : ¬(al.SameTypes ∧ al.Connected)) :
    Bad ((s.setVal a al).map fun s => (s, .ok)) := by
  rw [h.setVal ha]
  rintro s' err ⟨⟩ ⟨l', hlinked, hall⟩
  rw [hlinked.unique (h.linked.setVal a al)] at hall
  have hsame : ∀ b ∈ l, b ≠ a → (s.val b).SameTypes ∧ (s.val b).Connected :=
    fun b hb _ => ⟨(h.links b hb).1.same, (h.links b hb).2⟩
  exact hal ((set_val (fun al => al.SameTypes ∧ al.Connected) ha al hsame).mp hall)

lemma found (h : TableAt s l) {stop : Nat → Bool} (hfound : s.search stop = some a) (h0 : a ≠ 0) :
    l.find? stop = some a := by
  rw [h.linked.search_eq, Option.some.injEq] at hfound
  cases hfind : l.find? stop with
  | none =>
    rw [hfind] at hfound
    exact absurd hfound.symm h0
  | some b =>
    rw [hfind] at hfound
    exact congrArg some hfound

/-- The link that an argument names, with the text behind the name. -/
def target (arg : List UInt8) (s : LinkHeap) : Option (Nat × List UInt8) :=
  (splitArg arg).bind fun r => (findAlink r.1 s).bind fun a => if a = 0 then none else some (a, r.2)

lemma withAlink_cases (h : TableAt s l) (arg : List UInt8) (f : Nat → List UInt8 → Option Outcome) : target arg s =
    none ∧ Good s (withAlink arg s f) ∨ ∃ a text, target arg s = some (a, text) ∧ a ∈ l ∧ withAlink arg s f =
    f a text := by
  rw [target, withAlink]
  cases hsplit : splitArg arg with
  | none => exact .inl ⟨rfl, h.same _⟩
  | some r =>
    have hsearch : findAlink r.1 s = some ((l.find? fun a => (s.val a).name == r.1).getD 0) := h.linked.search_eq _
    dsimp only
    rw [Option.bind_some, hsearch, Option.bind_some, Option.bind_some]
    by_cases h0 : (l.find? fun a => (s.val a).name == r.1).getD 0 = 0
    · rw [if_pos h0, if_pos h0]
      exact .inl ⟨rfl, h.same _⟩
    rw [if_neg h0, if_neg h0]
    exact .inr ⟨_, _, rfl, mem_of_find?_eq_some (found h hsearch h0), rfl⟩

variable {text : List UInt8}

lemma target_eq_some (h : target arg s = some (a, text)) :
    ∃ name, splitArg arg = some (name, text) ∧ findAlink name s = some a := by
  obtain ⟨⟨name, text'⟩, hsplit, hfind⟩ := bind_eq_some_iff.mp h
  obtain ⟨b, hb, hif⟩ := bind_eq_some_iff.mp hfind
  split at hif
  · cases hif
  rw [Option.some.injEq, Prod.mk.injEq] at hif
  obtain ⟨rfl, rfl⟩ := hif
  exact ⟨name, hsplit, hb⟩

lemma withAlink_eq (h : TableAt s l) (htarget : target arg s = some (a, text))
    (f : Nat → List UInt8 → Option Outcome) : a ∈ l ∧ withAlink arg s f = f a text := by
  obtain ⟨hnone, -⟩ | ⟨b, text', htarget', hb, heq⟩ := withAlink_cases h arg f
  · rw [hnone] at htarget
    cases htarget
  rw [htarget, Option.some.injEq, Prod.mk.injEq] at htarget'
  obtain ⟨rfl, rfl⟩ := htarget'
  exact ⟨hb, heq⟩

lemma added_perm {type : List UInt8} (rows : List (List Alwire)) (ptrs : List Nat) (hlen : ptrs.length = rows.length) :
    ((rows.zipWith (fun ws p => ws ++ [⟨p, type, 0, 0⟩]) ptrs).map fun ws => ws.map Alwire.addr).flatten.Perm
      ((rows.map fun ws => ws.map Alwire.addr).flatten ++ ptrs) := by
  induction rows generalizing ptrs with
  | nil =>
    rw [length_eq_zero_iff.mp hlen]
    exact Perm.refl _
  | cons ws rows ih =>
    cases ptrs with
    | nil => cases hlen
    | cons p ptrs =>
      have hrest := ih ptrs (Nat.succ.inj hlen)
      simp only [zipWith_cons_cons, map_cons, flatten_cons, map_append, map_nil,
        append_assoc, singleton_append]
      exact (hrest.cons p |>.trans perm_middle.symm).append_left _

variable {type : List UInt8}

lemma addType_wired (h : al.Wired) {ptrs : List Nat}
    (hrow : al.wires[0]? = some ws) (hnew : ¬(ws.any fun w => w.type == type) = true) (hptrs : ptrs.Nodup) (h0 : 0 ∉ ptrs)
    (hfresh : ∀ ws ∈ al.wires, ∀ w ∈ ws, w.addr ∉ ptrs) (hlen : ptrs.length = al.hosts.length) :
    Autolink.Wired { al with wires := al.wires.zipWith (fun ws p => ws ++ [⟨p, type, 0, 0⟩]) ptrs } := by
  obtain ⟨hcount, ts, hts, hsame⟩ := h.same
  rw [types, length_map] at hcount
  have hperm := @added_perm type al.wires ptrs (hlen.trans hcount.symm)
  refine ⟨⟨?_, ts ++ [type], ?_, ?_⟩, hperm.nodup_iff.mpr ?_, fun hmem => ?_, h.host⟩
  · simp only [types, length_map, length_zipWith, hlen, hcount, Nat.min_self]
  · have hfirst := hsame _ (mem_map_of_mem (mem_of_getElem? hrow))
    rw [nodup_append]
    refine ⟨hts, nodup_singleton _, fun x hx y hy hxy => hnew ?_⟩
    rw [← hfirst, hxy, mem_singleton.mp hy] at hx
    obtain ⟨w, hw, hwt⟩ := mem_map.mp hx
    exact any_eq_true.mpr ⟨w, hw, beq_iff_eq.mpr hwt⟩
  · intro row hmem
    obtain ⟨ws', hws', rfl⟩ := mem_map.mp hmem
    obtain ⟨i, hi, rfl⟩ := mem_iff_getElem.mp hws'
    rw [getElem_zipWith, map_append, hsame _ (mem_map_of_mem (getElem_mem _))]
    rfl
  · rw [nodup_append]
    refine ⟨h.nodup, hptrs, fun x hx y hy hxy => ?_⟩
    obtain ⟨row, hrow', hx⟩ := mem_flatten.mp hx
    obtain ⟨ws', hws', rfl⟩ := mem_map.mp hrow'
    obtain ⟨w, hw, rfl⟩ := mem_map.mp hx
    exact hfresh ws' hws' w hw (hxy ▸ hy)
  · rcases mem_append.mp (hperm.mem_iff.mp hmem) with hmem | hmem
    · exact h.nonzero hmem
    · exact h0 hmem

lemma connected_off (h : al.enabled = false) : al.Connected := by
  intro hen
  rw [h] at hen
  cases hen

lemma first_row (h : al.Wired) (hne : al.hosts ≠ []) : ∃ ws, al.wires[0]? = some ws := by
  have hlen := h.same.1
  rw [types, length_map] at hlen
  cases hw : al.wires with
  | nil =>
    rw [hw] at hlen
    exact absurd (length_eq_zero_iff.mp hlen.symm) hne
  | cons ws rest => exact ⟨ws, rfl⟩

lemma no_row (h : al.Wired) (hnil : al.hosts = []) : al.wires[0]? = none := by
  have hlen := h.same.1
  rw [types, length_map, hnil] at hlen
  rw [length_eq_zero_iff.mp hlen]
  rfl

/-! ### `alinkaddtypelink` -/

lemma addtype_good (h : TableAt s l) {avWires : List (List UInt8)} {ptrs : List Nat}
    (he : (LinkEvent.alinkaddtypelink avWires ptrs arg).Legal s)
    (hfine : ∀ a type, target arg s = some (a, type) → (s.val a).enabled = false → type ∈ avWires →
      (s.val a).hosts ≠ []) : Good s (alinkaddtypelink avWires ptrs arg s) := by
  obtain ⟨hptrs, h0, hfresh, hlen⟩ := he
  rw [alinkaddtypelink]
  obtain ⟨-, hgood⟩ | ⟨a, type, htarget, ha, heq⟩ := withAlink_cases h arg _
  · exact hgood
  rw [heq]
  dsimp only
  by_cases hon : (s.val a).enabled = true
  · rw [if_pos hon]
    exact h.same _
  have hen := eq_false_of_ne_true hon
  rw [if_neg hon]
  by_cases hknown : type ∈ avWires
  · obtain ⟨ws, hws⟩ := first_row (h.links a ha).1 (hfine a type htarget hen hknown)
    rw [if_neg (not_not.mpr hknown), hws]
    simp only [bind, Option.bind]
    by_cases hin : (ws.any fun w => w.type == type) = true
    · rw [if_pos hin]
      exact h.same _
    rw [if_neg hin]
    obtain ⟨name, hsplit, hfind⟩ := target_eq_some htarget
    have hcount := hlen (name, type) hsplit a hfind
    exact h.set ha _ ⟨addType_wired (h.links a ha).1 hws hin hptrs h0 (hfresh a (h.linked.live a ha)) hcount,
      connected_off hen⟩
  rw [if_pos hknown]
  exact h.same _

lemma addtype_bad (h : TableAt s l) {avWires : List (List UInt8)} (ptrs : List Nat)
    (htarget : target arg s = some (a, type)) (hen : (s.val a).enabled = false) (hknown : type ∈ avWires)
    (hnil : (s.val a).hosts = []) : Bad (alinkaddtypelink avWires ptrs arg s) := by
  rw [alinkaddtypelink]
  obtain ⟨hb, heq⟩ := withAlink_eq h htarget _
  rw [heq]
  dsimp only
  rw [hen, if_neg Bool.false_ne_true, if_neg (not_not.mpr hknown), no_row (h.links a hb).1 hnil]
  exact Bad.none

/-! ### `alinkdeltypelink` -/

lemma delType_eq_some {rows rows' : List (List Alwire)} (h : delType type rows = some rows') :
    ∃ ws ∈ rows, ∃ w ∈ ws, w.type = type := by
  induction rows generalizing rows' with
  | nil => cases h
  | cons ws rows ih =>
    rw [delType] at h
    split at h
    · next hany =>
      obtain ⟨w, hw, hwt⟩ := any_eq_true.mp hany
      exact ⟨ws, mem_cons_self, w, hw, beq_iff_eq.mp hwt⟩
    obtain ⟨rest, hrest, -⟩ := map_eq_some_iff.mp h
    obtain ⟨ws', hws', hw⟩ := ih hrest
    exact ⟨ws', mem_cons_of_mem _ hws', hw⟩

lemma deltype_good (h : TableAt s l)
    (hfine : ∀ a type, target arg s = some (a, type) → (s.val a).enabled = false → (s.val a).hosts ≠ [] ∧
      ((∃ ws ∈ (s.val a).wires, ∃ w ∈ ws, w.type = type) → (s.val a).hosts.length = 1)) :
    Good s (alinkdeltypelink arg s) := by
  rw [alinkdeltypelink]
  obtain ⟨-, hgood⟩ | ⟨a, type, htarget, ha, heq⟩ := withAlink_cases h arg _
  · exact hgood
  rw [heq]
  dsimp only
  by_cases hon : (s.val a).enabled = true
  · rw [if_pos hon]
    exact h.same _
  have hen := eq_false_of_ne_true hon
  obtain ⟨hne, hone⟩ := hfine a type htarget hen
  obtain ⟨ws, hws⟩ := first_row (h.links a ha).1 hne
  rw [if_neg hon, hws]
  simp only [bind, Option.bind]
  by_cases hnil : ws = []
  · rw [if_pos hnil]
    exact h.same _
  rw [if_neg hnil]
  cases hdel : delType type (s.val a).wires with
  | none => exact h.same _
  | some rows =>
    obtain ⟨⟨hcount, ts, hts, hsame⟩, hnodup, hnonzero, hhost⟩ := (h.links a ha).1
    rw [types, length_map, hone (delType_eq_some hdel)] at hcount
    obtain ⟨row, hrow⟩ := length_eq_one_iff.mp hcount
    rw [addrs, hrow, map_singleton, flatten_singleton] at hnodup hnonzero
    have htypes : row.map Alwire.type = ts := hsame _ (by rw [types, hrow]; exact mem_cons_self)
    have hrows : rows = [row.eraseP fun w => w.type == type] := by
      rw [hrow, delType, delType] at hdel
      split at hdel
      · exact (some.inj hdel).symm
      · cases hdel
    have hsub : (row.eraseP fun w => w.type == type).Sublist row := eraseP_sublist
    refine h.set ha _ ⟨⟨⟨?_, _, (hsub.map _).nodup (htypes ▸ hts), ?_⟩, ?_, ?_, hhost⟩, connected_off hen⟩
    · rw [types, hrows, hone (delType_eq_some hdel)]
      rfl
    · rw [types, hrows]
      exact fun r hr => mem_singleton.mp hr
    · rw [addrs, hrows, map_singleton, flatten_singleton]
      exact (hsub.map _).nodup hnodup
    · rw [addrs, hrows, map_singleton, flatten_singleton]
      exact fun hmem => hnonzero ((hsub.map _).subset hmem)

lemma deltype_bad (h : TableAt s l) (htarget : target arg s = some (a, type))
    (hen : (s.val a).enabled = false)
    (hbad : ¬((s.val a).hosts ≠ [] ∧ ((∃ ws ∈ (s.val a).wires, ∃ w ∈ ws, w.type = type) → (s.val a).hosts.length = 1))) :
    Bad (alinkdeltypelink arg s) := by
  rw [alinkdeltypelink]
  obtain ⟨hb, heq⟩ := withAlink_eq h htarget _
  rw [heq]
  dsimp only
  rw [hen, if_neg Bool.false_ne_true]
  by_cases hnil : (s.val a).hosts = []
  · rw [no_row (h.links a hb).1 hnil]
    exact Bad.none
  rw [not_and] at hbad
  obtain ⟨⟨row, hrow, w, hw, hwt⟩, hmany⟩ := Classical.not_imp.mp (hbad hnil)
  obtain ⟨⟨hcount, ts, hts, hsame⟩, -⟩ := (h.links a hb).1
  rw [types, length_map] at hcount
  have hhas {ws : List Alwire} (hws : ws ∈ (s.val a).wires) : type ∈ ws.map Alwire.type := by
    rw [hsame _ (mem_map_of_mem hws), ← hsame _ (mem_map_of_mem hrow)]
    exact hwt ▸ mem_map_of_mem hw
  match hwires : (s.val a).wires with
  | [] =>
    rw [hwires] at hrow
    exact absurd hrow not_mem_nil
  | [_] =>
    rw [hwires] at hcount
    exact absurd hcount.symm hmany
  | ws :: ws' :: rest =>
    have hmem : ws ∈ (s.val a).wires ∧ ws' ∈ (s.val a).wires := by
      rw [hwires]
      exact ⟨mem_cons_self, mem_cons_of_mem _ mem_cons_self⟩
    obtain ⟨v, hv, hvt⟩ := mem_map.mp (hhas hmem.1)
    have hany : (ws.any fun w => w.type == type) = true := any_eq_true.mpr ⟨v, hv, beq_iff_eq.mpr hvt⟩
    have hdel : delType type (ws :: ws' :: rest) = some ((ws.eraseP fun w => w.type == type) :: ws' :: rest) := by
      rw [delType, if_pos hany]
    simp only [bind, Option.bind, getElem?_cons_zero, if_neg (ne_nil_of_mem hv), hdel]
    refine h.set_bad hb _ fun hboth => ?_
    obtain ⟨-, ts', -, hsame'⟩ := hboth.1
    have hlens : (ws.eraseP fun w => w.type == type).length = ws'.length := by
      have hfirst := hsame' _ (mem_map_of_mem mem_cons_self)
      have hsecond := hsame' _ (mem_map_of_mem (mem_cons_of_mem _ mem_cons_self))
      simpa using congrArg length (hfirst.trans hsecond.symm)
    have hlen : ws.length = ws'.length := by
      simpa using congrArg length
        ((hsame _ (mem_map_of_mem hmem.1)).trans (hsame _ (mem_map_of_mem hmem.2)).symm)
    rw [length_eraseP, if_pos hany] at hlens
    have hpos := length_pos_of_mem hv
    omega

/-! ### `alinklinkonoff` -/

def Enables (now : Int) (al : Autolink) : Prop :=
  ∃ w ws, al.wires[0]? = some (w :: ws) ∧ (al.connhost = 0 ∨ ws = [] ∧ w.lastTry > now - CHANGEWIRETIME)

lemma wire_zero (h : al.Wired) : al.wire 0 = none := by
  rw [Autolink.wire, findSome?_eq_none_iff]
  exact fun ws hws => wireAt_eq_none fun hmem =>
    h.nonzero (mem_flatten.mpr ⟨_, mem_map_of_mem hws, hmem⟩)

lemma onoff_good (h : TableAt s l) (scan : List UInt8 → Option Int) (now : Int)
    (hfine : ∀ a text v, target arg s = some (a, text) → scan text = some v → v ≠ 0 → (s.val a).enabled = false →
      Enables now (s.val a)) : Good s (alinklinkonoff scan now arg s) := by
  rw [alinklinkonoff]
  by_cases hscan : ((splitArg arg).any fun r => (scan r.2).isNone) = true
  · rw [if_pos hscan]
    exact h.same _
  rw [if_neg hscan]
  obtain ⟨-, hgood⟩ | ⟨a, text, htarget, ha, heq⟩ := withAlink_cases h arg _
  · exact hgood
  rw [heq]
  dsimp only
  by_cases hvalue : scan text ≠ some 0
  · rw [if_pos hvalue]
    by_cases hon : (s.val a).enabled = true
    · rw [if_pos hon]
      exact h.same _
    obtain ⟨name, hsplit, -⟩ := target_eq_some htarget
    obtain ⟨v, hv⟩ : ∃ v, scan text = some v := by
      rw [hsplit, Option.any_some, Option.isNone_iff_eq_none] at hscan
      exact ne_none_iff_exists'.mp hscan
    have hv0 : v ≠ 0 := fun h0 => hvalue (h0 ▸ hv)
    obtain ⟨w, ws, hrow, hcond⟩ := hfine a text v htarget hv hv0 (eq_false_of_ne_true hon)
    obtain ⟨al', htry, hwired, -, hconnected⟩ := enabled_iff (h.links a ha).1 hrow now
    rw [if_neg hon, hrow]
    simp only [bind, Option.bind, firstWire, htry]
    exact h.set ha al' ⟨hwired, hconnected.mpr hcond⟩
  rw [if_neg hvalue]
  by_cases hon : (s.val a).enabled = true
  · obtain ⟨hsame, hnodup, hnonzero, hhost⟩ := (h.links a ha).1
    rw [if_pos hon]
    exact h.set ha _ ⟨⟨hsame, hnodup, hnonzero, hhost⟩, connected_off rfl⟩
  rw [if_neg hon]
  exact h.same _

lemma onoff_bad (h : TableAt s l) {scan : List UInt8 → Option Int} {v : Int}
    (htarget : target arg s = some (a, text)) (hv : scan text = some v) (hv0 : v ≠ 0) (hen : (s.val a).enabled = false)
    (hbad : ¬Enables now (s.val a)) : Bad (alinklinkonoff scan now arg s) := by
  obtain ⟨name, hsplit, -⟩ := target_eq_some htarget
  have hscan : ¬((splitArg arg).any fun r => (scan r.2).isNone) = true := by
    rw [hsplit, Option.any_some, hv]
    exact Bool.false_ne_true
  rw [alinklinkonoff, if_neg hscan]
  obtain ⟨hb, heq⟩ := withAlink_eq h htarget _
  have hvalue : scan text ≠ some 0 := fun h0 => hv0 (some.inj (hv.symm.trans h0))
  have hon : ¬(s.val a).enabled = true := ne_true_of_eq_false hen
  rw [heq]
  dsimp only
  rw [if_pos hvalue, if_neg hon]
  obtain ⟨hwired, -⟩ := h.links a hb
  match hrow : (s.val a).wires[0]? with
  | none => exact Bad.none
  | some [] =>
    have hnull := wire_zero hwired
    have hzero : Autolink.wire 0 { s.val a with enabled := true, connwire := 0 } = none := hnull
    simp only [bind, Option.bind, firstWire, alinkTry, hzero]
    exact Bad.none
  | some (w :: ws) =>
    obtain ⟨al', htry, -, -, hconnected⟩ := enabled_iff hwired hrow now
    simp only [bind, Option.bind, firstWire, htry]
    exact h.set_bad hb al' fun hboth => hbad ⟨w, ws, hrow, hconnected.mp hboth.2⟩

/-! ### `alinkdellink` -/

lemma dellink_found {k m : List Nat} (h : s.Linked (k ++ a :: m)) (hno : ∀ b ∈ k, ((s.val b).name == arg) = false)
    (hname : ((s.val a).name == arg) = true) :
    alinkdellink arg s =
      if (s.val a).enabled then some (s, .einval)
      else if (s.val a).hosts.all fun h => h.1 == 0 then
        some ({ s.relink k (s.next a) with allocated := s.allocated.filter fun b => b != a }, .ok)
      else none := by
  have hmem : a ∈ k ++ a :: m := mem_append_right _ mem_cons_self
  have hturns : k.length < s.turns := by
    have hlt := h.turns_lt
    rw [length_append] at hlt
    omega
  have hfree : (s.relink k (s.next a)).free a =
      some { s.relink k (s.next a) with allocated := s.allocated.filter fun b => b != a } := by
    rw [LinkedHeap.free, LinkedHeap.relink_allocated, if_pos (h.live a hmem)]
  rw [alinkdellink, @LinkedHeap.seek_found _ s m s.head a _ _ s.head k h.chain h.live hno hname hturns]
  simp only [bind, Option.bind]
  rw [if_neg (h.ne_zero hmem), h.relink_eq s.head (s.next a)]
  simp only [hfree]
  rfl

lemma dellink_iff (h : TableAt s l) (arg : List UInt8) :
    ((∀ a, findAlink arg s = some a → a ≠ 0 → (s.val a).enabled = false → ∀ h ∈ (s.val a).hosts, h.1 = 0) →
      Good s (alinkdellink arg s)) ∧
    ((∃ a, findAlink arg s = some a ∧ a ≠ 0 ∧ (s.val a).enabled = false ∧ ¬∀ h ∈ (s.val a).hosts, h.1 = 0) →
      Bad (alinkdellink arg s)) := by
  have hsearch : findAlink arg s = some ((l.find? fun a => (s.val a).name == arg).getD 0) := h.linked.search_eq _
  cases hfind : l.find? fun a => (s.val a).name == arg with
  | none =>
    have hnone : alinkdellink arg s = some (s, .einval) := by
      obtain ⟨q, hseek⟩ := @LinkedHeap.seek_none _ s l s.head (fun a => (s.val a).name == arg) _ s.head h.linked.chain
        h.linked.live (fun b hb => eq_false_of_ne_true (find?_eq_none.mp hfind b hb)) h.linked.turns_lt
      rw [alinkdellink, hseek]
      rfl
    rw [hfind] at hsearch
    rw [hnone]
    refine ⟨fun _ => h.same _, ?_⟩
    rintro ⟨a, ha, h0, -⟩
    exact absurd (some.inj (ha.symm.trans hsearch)) h0
  | some a =>
    obtain ⟨hname, k, m, hl, hk⟩ := find?_eq_some_iff_append.mp hfind
    have hmem : a ∈ l := mem_of_find?_eq_some hfind
    rw [hfind] at hsearch
    have hlinked := h.linked
    rw [hl] at hlinked
    have hno : ∀ b ∈ k, ((s.val b).name == arg) = false := fun b hb => by simpa using hk b hb
    rw [dellink_found hlinked hno hname]
    by_cases hon : (s.val a).enabled = true
    · rw [if_pos hon]
      refine ⟨fun _ => h.same _, ?_⟩
      rintro ⟨b, hb, -, hen, -⟩
      rw [some.inj (hb.symm.trans hsearch)] at hen
      exact absurd hon (ne_true_of_eq_false hen)
    rw [if_neg hon]
    by_cases hfree : ((s.val a).hosts.all fun h => h.1 == 0) = true
    · rw [if_pos hfree]
      constructor
      · intro _
        have hnodup := nodup_middle.mp hlinked.nodup
        have hout := hlinked.unlink.free (nodup_cons.mp hnodup).1
        rw [LinkedHeap.relink_allocated] at hout
        refine ⟨_, .ok, k ++ m, rfl, ⟨hout, fun b hb => ?_⟩, fun hne => absurd rfl hne⟩
        have hval : LinkedHeap.val { s.relink k (s.next a) with
            allocated := s.allocated.filter fun b => b != a } b = s.val b := congrFun (LinkedHeap.relink_val k (s.next a) s) b
        have hb' : b ∈ l := by
          rw [hl]
          rcases mem_append.mp hb with hb | hb
          · exact mem_append_left _ hb
          · exact mem_append_right _ (mem_cons_of_mem _ hb)
        rw [hval]
        exact h.links b hb'
      rintro ⟨b, hb, -, -, hbad⟩
      rw [some.inj (hb.symm.trans hsearch)] at hbad
      exact absurd (fun x hx => beq_iff_eq.mp (all_eq_true.mp hfree x hx)) hbad
    rw [if_neg hfree]
    refine ⟨fun hfine => ?_, fun _ => Bad.none⟩
    have hfirst := hfine a hsearch (h.linked.ne_zero hmem) (eq_false_of_ne_true hon)
    exact absurd (all_eq_true.mpr fun x hx => beq_iff_eq.mpr (hfirst x hx)) hfree

/-! ### `alinkaddlink` and the jobs -/

lemma newLink_wired (name text : List UInt8) (port : Option Nat) : (newLink name text port).Wired := by
  have hrows : ∀ row ∈ (newLink name text port).addrs, row = [] := by
    intro row hrow
    obtain ⟨ws, hws, rfl⟩ := mem_map.mp hrow
    obtain ⟨x, -, rfl⟩ := mem_map.mp hws
    rfl
  have hflat : (newLink name text port).addrs.flatten = [] := flatten_eq_nil_iff.mpr hrows
  refine ⟨⟨?_, [], nodup_nil, ?_⟩, ?_, ?_, length_pos_of_ne_nil⟩
  · rw [types, length_map]
    exact length_map _
  · intro row hrow
    obtain ⟨ws, hws, rfl⟩ := mem_map.mp hrow
    obtain ⟨x, -, rfl⟩ := mem_map.mp hws
    rfl
  · rw [hflat]
    exact nodup_nil
  · rw [hflat]
    exact not_mem_nil

lemma appendLink_eq (h : s.Linked l) {ptr : Nat} : appendLink ptr s = some ((s.malloc ptr).relink l ptr) := by
  rw [appendLink]
  rcases eq_nil_or_concat l with rfl | ⟨k, q, rfl⟩
  · have hempty : s.head = 0 := h.chain
    rw [if_pos hempty]
    rfl
  rw [concat_eq_append] at h ⊢
  have hhead : s.head ≠ 0 := by
    have hchain := h.chain
    cases k with
    | nil => exact hchain.1 ▸ hchain.2.1
    | cons c k => exact hchain.1 ▸ hchain.2.1
  have hlive : q ∈ (s.malloc ptr).allocated :=
    mem_cons_of_mem _ (h.live q (mem_append_right _ mem_cons_self))
  rw [if_neg hhead, h.search_eq, h.chain.find_last, Option.bind_some, Option.getD_some, LinkedHeap.setNext,
    LinkedHeap.store_eq hlive, LinkedHeap.relink, getLast?_append_of_ne_nil _ (cons_ne_nil q []),
    getLast?_singleton]

lemma addlink_good (h : TableAt s l) (port : Option Nat) {ptr : Nat} (h0 : ptr ≠ 0) (hptr : ptr ∉ s.allocated) :
    Good s (alinkaddlink port ptr arg s) := by
  rw [alinkaddlink]
  cases splitArg arg with
  | none => exact h.same _
  | some r =>
    have hsearch : findAlink r.1 s = some ((l.find? fun a => (s.val a).name == r.1).getD 0) := h.linked.search_eq _
    simp only [hsearch, bind, Option.bind]
    by_cases hknown : (l.find? fun a => (s.val a).name == r.1).getD 0 ≠ 0
    · rw [if_pos hknown]
      exact h.same _
    have hnew : ptr ∉ l := fun hmem => hptr (h.linked.live ptr hmem)
    have hin : ptr ∈ ((s.malloc ptr).relink l ptr).allocated := by
      rw [LinkedHeap.relink_allocated]
      exact mem_cons_self
    have hall : (s.malloc ptr).Linked (l ++ []) := by
      rw [append_nil]
      exact h.linked.malloc ptr
    have hinsert := @LinkedHeap.Linked.insert _ _ l [] ptr 0 hall rfl mem_cons_self h0 (by rwa [append_nil]) (newLink r.1 r.2 port)
    rw [if_neg hknown]
    rw [appendLink_eq h.linked]
    dsimp only
    rw [LinkedHeap.store_eq hin]
    refine ⟨_, .ok, l ++ [ptr], rfl, ⟨hinsert, fun b hb => ?_⟩, fun hne => absurd rfl hne⟩
    rcases mem_append.mp hb with hb | hb
    · have hne : b ≠ ptr := fun heq => hnew (heq ▸ hb)
      have hval := congrFun (LinkedHeap.relink_val l ptr (s.malloc ptr)) b
      rw [LinkedHeap.val, LinkedHeap.put_of_ne hne]
      change (LinkedHeap.val ((s.malloc ptr).relink l ptr) b).Wired ∧
        (LinkedHeap.val ((s.malloc ptr).relink l ptr) b).Connected
      rw [hval]
      exact h.links b hb
    rw [mem_singleton.mp hb, LinkedHeap.val, LinkedHeap.put_self]
    exact ⟨newLink_wired _ _ _, connected_off rfl⟩

lemma runTry_good (h : TableAt s l) (now : Int) (a : Nat) : Good s (runTry now a s) := by
  rw [runTry, h.linked.search_eq]
  simp only [bind, Option.bind]
  by_cases hrun : (l.find? fun b => b == a).getD 0 ≠ 0 ∧ (s.val ((l.find? fun b => b == a).getD 0)).enabled = true
  · have hmem := mem_of_find?_eq_some (found h (h.linked.search_eq _) hrun.1)
    obtain ⟨hwired, hconnected⟩ := h.links _ hmem
    obtain ⟨-, hon⟩ := hconnected hrun.2
    obtain ⟨al', htry, -, hal'⟩ := alinkTry_kept hwired hon now
    rw [if_pos hrun, htry]
    exact h.set hmem al' hal'
  rw [if_neg hrun]
  exact h.same _

/-! ### Runs -/

def LinkEvent.Fine (scan : List UInt8 → Option Int) (s : LinkHeap) : LinkEvent → Prop
  | .alinkaddtypelink avWires _ arg => ∀ a type, target arg s = some (a, type) → (s.val a).enabled = false →
      type ∈ avWires → (s.val a).hosts ≠ []
  | .alinkdeltypelink arg => ∀ a type, target arg s = some (a, type) → (s.val a).enabled = false →
      (s.val a).hosts ≠ [] ∧ ((∃ ws ∈ (s.val a).wires, ∃ w ∈ ws, w.type = type) → (s.val a).hosts.length = 1)
  | .alinkdellink arg => ∀ a, findAlink arg s = some a → a ≠ 0 → (s.val a).enabled = false →
      ∀ h ∈ (s.val a).hosts, h.1 = 0
  | .alinklinkonoff now arg => ∀ a text v, target arg s = some (a, text) → scan text = some v → v ≠ 0 →
      (s.val a).enabled = false → Enables now (s.val a)
  | _ => True

def LinkEvent.Right (scan : List UInt8 → Option Int) (s : LinkRun) (e : LinkEvent) : Prop :=
  (linkStep scan s e).fault = false ∧ HeapRight (linkStep scan s e).heap ∧
    ∀ heap err, e.outcome scan s.heap = some (heap, err) → err ≠ .ok → heap = s.heap

variable {scan : List UInt8 → Option Int}

variable {e : LinkEvent}

lemma event_good (h : TableAt s l) (he : e.Legal s) (hfine : e.Fine scan s) : Good s (e.outcome scan s) := by
  cases e with
  | alinkaddlink port ptr arg => exact addlink_good h port he.1 he.2
  | alinkaddtypelink avWires ptrs arg => exact addtype_good h he hfine
  | alinkdeltypelink arg => exact deltype_good h hfine
  | alinkdellink arg => exact (dellink_iff h arg).1 hfine
  | alinklinkonoff now arg => exact onoff_good h scan now hfine
  | alinkTry now al => exact runTry_good h now al

lemma event_bad (h : TableAt s l) (hbad : ¬e.Fine scan s) : Bad (e.outcome scan s) := by
  cases e with
  | alinkaddlink port ptr arg => exact absurd trivial hbad
  | alinkaddtypelink avWires ptrs arg =>
    simp only [LinkEvent.Fine, not_forall, not_not] at hbad
    obtain ⟨a, type, htarget, hen, hknown, hnil⟩ := hbad
    exact addtype_bad h ptrs htarget hen hknown hnil
  | alinkdeltypelink arg =>
    rw [LinkEvent.Fine, not_forall] at hbad
    obtain ⟨a, hbad⟩ := hbad
    rw [not_forall] at hbad
    obtain ⟨type, hbad⟩ := hbad
    obtain ⟨htarget, hbad⟩ := Classical.not_imp.mp hbad
    obtain ⟨hen, hbad⟩ := Classical.not_imp.mp hbad
    exact deltype_bad h htarget hen hbad
  | alinkdellink arg =>
    rw [LinkEvent.Fine, not_forall] at hbad
    obtain ⟨a, hbad⟩ := hbad
    obtain ⟨hfind, hbad⟩ := Classical.not_imp.mp hbad
    obtain ⟨h0, hbad⟩ := Classical.not_imp.mp hbad
    obtain ⟨hen, hbad⟩ := Classical.not_imp.mp hbad
    exact (dellink_iff h arg).2 ⟨a, hfind, h0, hen, hbad⟩
  | alinklinkonoff now arg =>
    simp only [LinkEvent.Fine, not_forall] at hbad
    obtain ⟨a, text, v, htarget, hv, hv0, hen, hbad⟩ := hbad
    exact onoff_bad h htarget hv hv0 hen hbad
  | alinkTry now al => exact absurd trivial hbad

def LinkInv (s : LinkRun) : Prop := s.fault = false ∧ ∃ l, TableAt s.heap l

lemma linkInit_inv : LinkInv linkInit :=
  ⟨rfl, [], ⟨rfl, nodup_nil, fun _ h => absurd h not_mem_nil⟩, fun _ h => absurd h not_mem_nil⟩

lemma step_good {s : LinkRun} (hs : LinkInv s) (he : e.Legal s.heap) (hfine : e.Fine scan s.heap) :
    LinkInv (linkStep scan s e) ∧ e.Right scan s := by
  obtain ⟨hfault, l, htable⟩ := hs
  obtain ⟨heap, err, l', hout, htable', herr⟩ := event_good htable he hfine
  rw [LinkEvent.Right, linkStep, hout]
  refine ⟨⟨hfault, l', htable'⟩, hfault, htable'.right, fun heap' err' heq hne => ?_⟩
  rw [Option.some.injEq, Prod.mk.injEq] at heq
  obtain ⟨rfl, rfl⟩ := heq
  exact herr hne

lemma step_bad {s : LinkRun} (hs : LinkInv s) (hbad : ¬e.Fine scan s.heap) : ¬e.Right scan s := by
  obtain ⟨-, l, htable⟩ := hs
  rintro ⟨hfault, hright, -⟩
  have hstep := event_bad htable hbad
  cases hout : e.outcome scan s.heap with
  | none =>
    rw [linkStep, hout] at hfault
    cases hfault
  | some r =>
    rw [linkStep, hout] at hright
    exact hstep r.1 r.2 hout hright

/-- The table stays right exactly when no wire type is removed from a link with several hosts, a link is enabled only when
it has wires and its host is the first one or `alink_try` goes on from the only wire of that, and no link without hosts
gets or loses a type, and no link with several hosts is deleted. -/
theorem links_right_iff (es : List LinkEvent) (hes : (linkMachine scan).Along (fun s e => e.Legal s.heap) linkInit es) :
    (linkMachine scan).Along (fun s e => e.Right scan s) linkInit es ↔
      (linkMachine scan).Along (fun s e => e.Fine scan s.heap) linkInit es :=
  Machine.along_iff LinkInv (fun _ _ hs he hfine => step_good hs he hfine) (fun _ _ hs _ hbad => step_bad hs hbad)
    linkInit_inv es hes

/-- A link `l` with the host `a` gets the type `t` and is enabled. -/
theorem links_right_iff_enabled :
    (linkMachine fun _ => some 1).Along (fun s e => e.Right (fun _ => some 1) s) linkInit
      [.alinkaddlink (some 1) 1 [108, 32, 97], .alinkaddtypelink [[116]] [2] [108, 32, 116],
        .alinklinkonoff 100 [108, 32, 49]] := by
  refine (links_right_iff _ ?_).mpr ⟨trivial, ?_, ?_, trivial⟩
  · refine ⟨⟨by decide, not_mem_nil⟩, ⟨by decide, by decide, by decide, ?_⟩, trivial, trivial⟩
    rintro - ⟨⟩ - ⟨⟩
    rfl
  · intro a type htarget
    have hrun : some (1, [116]) = some (a, type) := htarget
    cases hrun
    exact fun _ _ => by decide
  intro a text v htarget
  have hrun : some (1, [49]) = some (a, text) := htarget
  cases hrun
  exact fun _ _ _ => ⟨⟨2, [116], 0, 0⟩, [], rfl, .inl rfl⟩

theorem second_host_keeps_type :
    let es := [.alinkaddlink (some 1) 1 [108, 32, 97, 32, 98], .alinkaddtypelink [[116]] [2, 3] [108, 32, 116],
      .alinkdeltypelink [108, 32, 116]]
    (linkMachine fun _ => none).Along (fun s e => e.Legal s.heap) linkInit es ∧
      ¬(linkMachine fun _ => none).Along (fun s e => e.Right (fun _ => none) s) linkInit es := by
  refine ⟨⟨⟨by decide, not_mem_nil⟩, ⟨by decide, by decide, by decide, ?_⟩, trivial, trivial⟩, ?_⟩
  · rintro - ⟨⟩ - ⟨⟩
    rfl
  rintro ⟨-, -, ⟨-, ⟨l, hlinked, hright⟩, -⟩, -⟩
  obtain ⟨l', rfl, -⟩ := hlinked.chain.pop (by decide)
  obtain ⟨-, ts, -, hsame⟩ := (hright 1 mem_cons_self).1
  have hfirst : [] = ts := hsame [] (by decide)
  have hsecond : [[116]] = ts := hsame [[116]] (by decide)
  exact absurd (hfirst.trans hsecond.symm) (by decide)

end Vde.Alink
