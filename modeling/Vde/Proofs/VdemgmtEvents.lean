import Mathlib.Data.List.Infix
import Vde.Proofs.UtmCursor
import Vde.Vdemgmt

/-!
# The event table and its messages

An event that is registered has no earlier event as a prefix: `vdemgmt_asyncreg` looks for one. So the first entry that
fits an event of the table is its own, and each message goes to the first event that it begins with.
-/

namespace Vde.Mgmt

open Cmd List Function Bool

variable {atab : List Asynctab} {event : List UInt8} {t : Asynctab}

/-! ## The table -/

lemma atabFind_eq (atab : List Asynctab) (event : List UInt8) :
    atabFind atab event = atab.find? fun t => t.event.isPrefixOf event := by
  induction atab with
  | nil => rfl
  | cons t atab ih =>
    rw [atabFind, find?_cons]
    cases t.event.isPrefixOf event with
    | true => rfl
    | false => exact ih

lemma atabAdd_eq (atab : List Asynctab) (new : Asynctab) : atabAdd atab new = atab ++ [new] := by
  induction atab with
  | nil => rfl
  | cons t atab ih => rw [atabAdd, ih, cons_append]

lemma atabDel_eq (atab : List Asynctab) (event : List UInt8) :
    atabDel atab event = atab.eraseP fun t => t.event.isPrefixOf event := by
  induction atab with
  | nil => rfl
  | cons t atab ih =>
    rw [atabDel, eraseP_cons]
    cases t.event.isPrefixOf event with
    | true => rfl
    | false => rw [if_neg Bool.false_ne_true, ih, cond_false]

lemma atabFind_eq_none : atabFind atab event = none ↔ ∀ t ∈ atab, ¬t.event <+: event := by
  rw [atabFind_eq, find?_eq_none]
  simp only [ isPrefixOf_iff_prefix]

lemma atabFind_eq_some : atabFind atab event = some t ↔ t.event <+: event ∧ ∃ before after, atab =
    before ++ t :: after ∧ ∀ s ∈ before, ¬s.event <+: event := by
  rw [atabFind_eq, find?_eq_some_iff_append]
  simp only [ne_eq, isPrefixOf_iff_prefix, not_eq_true', eq_false_iff]

def PrefixOrdered (atab : List Asynctab) : Prop := atab.Pairwise fun s t => ¬s.event <+: t.event

lemma PrefixOrdered.add (h : PrefixOrdered atab) (hfind : atabFind atab event = none) (callback : Nat) :
    PrefixOrdered (atabAdd atab ⟨event, callback⟩) := by
  rw [atabAdd_eq]
  refine pairwise_append.mpr ⟨h, pairwise_singleton _ _, ?_⟩
  intro s hs t ht
  rw [mem_singleton.mp ht]
  exact atabFind_eq_none.mp hfind s hs

lemma PrefixOrdered.del (h : PrefixOrdered atab) (event : List UInt8) : PrefixOrdered (atabDel atab event) := by
  rw [atabDel_eq]
  exact h.sublist eraseP_sublist

lemma PrefixOrdered.del_eq {before after : List Asynctab} (h : PrefixOrdered (before ++ t :: after)) :
    atabDel (before ++ t :: after) t.event = before ++ after := by
  have hbefore : ∀ s ∈ before, ¬s.event <+: t.event := by
    intro s hs
    exact (pairwise_append.mp h).2.2 s hs t mem_cons_self
  rw [atabDel_eq, eraseP_append_right, eraseP_cons_of_pos]
  · exact isPrefixOf_iff_prefix.mpr prefix_rfl
  intro s hs hpre
  exact hbefore s hs ( isPrefixOf_iff_prefix.mp hpre)

lemma PrefixOrdered.event_ne {before after : List Asynctab} (h : PrefixOrdered (before ++ t :: after)) :
    ∀ s ∈ before ++ after, s.event ≠ t.event := by
  obtain ⟨-, hcons, hcross⟩ := pairwise_append.mp h
  intro s hs hsame
  cases mem_append.mp hs with
  | inl hbefore => exact hcross s hbefore t mem_cons_self (hsame ▸ prefix_rfl)
  | inr hafter => exact (pairwise_cons.mp hcons).1 s hafter (hsame ▸ prefix_rfl)

/-! ## Dispatch -/

/-- The entries whose callbacks are called for some texts, one after the other. -/
inductive Dispatches (atab : List Asynctab) : List (List UInt8) → List Asynctab → Prop
  | nil : Dispatches atab [] []
  | call {text : List UInt8} {before after : List Asynctab} {t : Asynctab} {texts : List (List UInt8)}
      {ts : List Asynctab} (hatab : atab = before ++ t :: after) (hfits : t.event <+: text)
      (hfirst : ∀ s ∈ before, ¬s.event <+: text) (hrest : Dispatches atab texts ts) :
      Dispatches atab (text :: texts) (t :: ts)
  | drop {text : List UInt8} {texts : List (List UInt8)} {ts : List Asynctab} (hnone : ∀ t ∈ atab, ¬t.event <+: text)
      (hrest : Dispatches atab texts ts) : Dispatches atab (text :: texts) ts

lemma Dispatches.find {texts : List (List UInt8)} {ts : List Asynctab} (h : Dispatches atab texts ts)
    (text : List UInt8) : Dispatches atab (text :: texts) ((atabFind atab text).toList ++ ts) := by
  cases hfind : atabFind atab text with
  | none => exact .drop (atabFind_eq_none.mp hfind) h
  | some t =>
    obtain ⟨hfits, before, after, hatab, hfirst⟩ := atabFind_eq_some.mp hfind
    exact .call hatab hfits hfirst h

/-- The texts of the messages among what a command has received. -/
def sendcmdTexts (outs : List UtmOut) : List (List UInt8) :=
  (outs.filter fun p => p.tag = ASYNTAG).map fun p => eventText p.buf

lemma sendcmdTexts_cons (p : UtmOut) (outs : List UtmOut) :
    sendcmdTexts (p :: outs) = (if p.tag = ASYNTAG then [eventText p.buf] else []) ++ sendcmdTexts outs := by
  unfold sendcmdTexts
  rw [filter_cons]
  by_cases htag : p.tag = ASYNTAG
  · rw [if_pos (decide_eq_true htag), if_pos htag]
    rfl
  rw [if_neg (by simpa using htag), if_neg htag]
  rfl

lemma sendcmdCalls_cons (atab : List Asynctab) (rv : Int) (p : UtmOut) (outs : List UtmOut) :
    (sendcmdCalls atab rv (p :: outs)).map Call.entry =
      (if p.tag = ASYNTAG then (atabFind atab (eventText p.buf)).toList else []) ++
        (sendcmdCalls atab rv outs).map Call.entry := by
  unfold sendcmdCalls
  rw [filterMap_cons]
  by_cases htag : p.tag = ASYNTAG
  · rw [if_pos htag, if_pos htag]
    cases atabFind atab (eventText p.buf) <;> rfl
  rw [if_neg htag, if_neg htag]
  rfl

lemma sendcmdCalls_dispatches (atab : List Asynctab) (rv : Int) (outs : List UtmOut) :
    Dispatches atab (sendcmdTexts outs) ((sendcmdCalls atab rv outs).map Call.entry) := by
  induction outs with
  | nil => exact .nil
  | cons p outs ih =>
    rw [sendcmdTexts_cons, sendcmdCalls_cons]
    by_cases htag : p.tag = ASYNTAG
    · rw [if_pos htag, if_pos htag]
      exact ih.find (eventText p.buf)
    rw [if_neg htag, if_neg htag]
    exact ih

/-- The texts of the messages that some turns of `vdemgmt_asyncrecv` receive. -/
def asyncTexts (recv : Receive) (atab : List Asynctab) : Nat → AsyncRun → List (List UInt8)
  | 0, _ => []
  | turns + 1, r =>
    let found := recv r.enter.pbuf r.enter.reads
    (if found.outtag = -1 then [] else [eventText found.buf]) ++
      asyncTexts recv atab turns (asyncTurn recv atab r.enter)

lemma asyncrecv_dispatches (recv : Receive) (atab : List Asynctab) (turns : Nat) (r : AsyncRun) : ∃ new,
    (asyncrecv recv atab turns r).calls = r.calls ++ new ∧
    Dispatches atab (asyncTexts recv atab turns r) (new.map Call.entry) := by
  induction turns generalizing r with
  | zero => exact ⟨[], (append_nil _).symm, .nil⟩
  | succ turns ih =>
    obtain ⟨new, hnew, hrest⟩ := ih (asyncTurn recv atab r.enter)
    have hcalls : r.enter.calls = r.calls := by
      unfold AsyncRun.enter
      cases r.again <;> rfl
    rw [asyncrecv, asyncTexts]
    by_cases hend : (recv r.enter.pbuf r.enter.reads).outtag = -1
    · have hturn : (asyncTurn recv atab r.enter).calls = r.calls := by
        rw [asyncTurn, if_pos hend]
        exact hcalls
      rw [if_pos hend, nil_append]
      exact ⟨new, by rw [hnew, hturn], hrest⟩
    rw [if_neg hend, singleton_append]
    have hstep := hrest.find (eventText (recv r.enter.pbuf r.enter.reads).buf)
    cases hfind : atabFind atab (eventText (recv r.enter.pbuf r.enter.reads).buf) with
    | none =>
      have hturn : (asyncTurn recv atab r.enter).calls = r.calls := by
        rw [asyncTurn, if_neg hend, hfind]
        exact hcalls
      rw [hfind] at hstep
      exact ⟨new, by rw [hnew, hturn], hstep⟩
    | some t =>
      have hturn : ∃ call, call.entry = t ∧ (asyncTurn recv atab r.enter).calls = r.calls ++ [call] := by
        rw [asyncTurn, if_neg hend, hfind]
        exact ⟨_, rfl, congrArg (· ++ _) hcalls⟩
      obtain ⟨call, hentry, hturn⟩ := hturn
      rw [hfind] at hstep
      refine ⟨call :: new, by rw [hnew, hturn, append_assoc, singleton_append], ?_⟩
      rw [map_cons, hentry]
      exact hstep

/-! ## Registrations -/

inductive TableOp where
  | reg (event : List UInt8) (callback : Nat) (found : RegFound)
  | unreg (event : List UInt8) (found : UnregFound)
  | sendcmd (cmd : List UInt8) (rv : Int) (outs : List UtmOut)
  | asyncrecv (recv : Receive) (turns : Nat) (pbuf : UtmBuf) (reads : List (List UInt8))

def tableStep (conn : Vdemgmt) : TableOp → Option Vdemgmt
  | .reg event callback found => (asyncreg conn event callback found).2
  | .unreg event found => some (asyncunreg conn event found)
  | .sendcmd cmd rv outs => some (sendcmd conn cmd rv outs)
  | .asyncrecv recv turns pbuf reads =>
    some { conn with calls := conn.calls ++ (asyncrecv recv conn.atab turns (asyncStart pbuf reads)).calls }

/-- The calls of a client; only events of the table are unregistered. -/
def tableMachine : Machine (Option Vdemgmt) TableOp where
  enabled conn op :=
    match op with
    | .unreg event _ => ∀ conn', conn = some conn' → ∃ t ∈ conn'.atab, t.event = event
    | _ => True
  step conn op := conn.bind fun conn => tableStep conn op

/-- The loop of `vdemgmt_close` empties the table in as many turns as there are entries. -/
structure TableGood (conn : Vdemgmt) : Prop where
  ordered : PrefixOrdered conn.atab
  closes : ∀ found : List UnregFound, conn.atab.length ≤ found.length → (closeLoop found conn).atab = []

def TableRight (conn : Option Vdemgmt) : Prop := ∃ conn', conn = some conn' ∧ TableGood conn'

/-- The messages that are received in a call. -/
def messages (conn : Vdemgmt) : TableOp → List (List UInt8)
  | .reg event _ found =>
    if (atabFind conn.atab event).isSome || !found.printed then [] else sendcmdTexts found.outs
  | .unreg _ found => if found.printed then sendcmdTexts found.outs else []
  | .sendcmd _ _ outs => sendcmdTexts outs
  | .asyncrecv recv turns pbuf reads => asyncTexts recv conn.atab turns (asyncStart pbuf reads)

/-- Each message calls the first event that it begins with, and `vdemgmt_asyncunreg` takes the entry of its event and no
other. -/
structure OpGood (conn : Vdemgmt) (op : TableOp) (conn' : Vdemgmt) : Prop where
  dispatch : ∃ new, conn'.calls = conn.calls ++ new ∧ Dispatches conn.atab (messages conn op) (new.map Call.entry)
  unreg : ∀ event found, op = .unreg event found →
    ∃ before t after, conn.atab = before ++ t :: after ∧ t.event = event ∧
      (∀ s ∈ before ++ after, s.event ≠ event) ∧ conn'.atab = before ++ after

def OpRight (conn : Option Vdemgmt) (op : TableOp) : Prop :=
  ∀ conn' conn'', conn = some conn' → tableStep conn' op = some conn'' → OpGood conn' op conn''

/-- There is memory for the event of each entry. -/
def EventCopied (conn : Option Vdemgmt) (op : TableOp) : Prop :=
  ∀ conn' event callback found, conn = some conn' → op = .reg event callback found →
    atabFind conn'.atab event = none → found.printed = true → found.rv = 0 → found.alloc = true → found.dup = true

lemma Vdemgmt.calls_self (conn : Vdemgmt) : ∃ new, conn.calls = conn.calls ++ new ∧
    Dispatches conn.atab [] (new.map Call.entry) :=
  ⟨[], (append_nil _).symm, .nil⟩

lemma sendcmd_dispatch (conn : Vdemgmt) (cmd : List UInt8) (rv : Int) (outs : List UtmOut) : ∃ new,
    (sendcmd conn cmd rv outs).calls = conn.calls ++ new ∧
    Dispatches conn.atab (sendcmdTexts outs) (new.map Call.entry) :=
  ⟨_, rfl, sendcmdCalls_dispatches conn.atab rv outs⟩

/-- What `vdemgmt_asyncreg` may do: leave the table as it is, add the event behind the others, or lose the table. -/
lemma asyncreg_cases (conn : Vdemgmt) (event : List UInt8) (callback : Nat) (found : RegFound) :
    (∃ conn', (asyncreg conn event callback found).2 = some conn' ∧
      (conn'.atab = conn.atab ∨
        atabFind conn.atab event = none ∧ conn'.atab = atabAdd conn.atab ⟨event, callback⟩) ∧
      ∃ new, conn'.calls = conn.calls ++ new ∧
        Dispatches conn.atab (messages conn (.reg event callback found)) (new.map Call.entry)) ∨
      (asyncreg conn event callback found).2 = none ∧ atabFind conn.atab event = none ∧ found.printed = true ∧
        found.rv = 0 ∧ found.alloc = true ∧ found.dup = false := by
  obtain ⟨printed, rv, outs, alloc, dup⟩ := found
  have hcalls := sendcmd_dispatch conn (DEBUGADD ++ 32 :: event) rv outs
  simp only [asyncreg, messages]
  cases atabFind conn.atab event with
  | some t => exact .inl ⟨conn, rfl, .inl rfl, conn.calls_self⟩
  | none =>
    cases printed with
    | false => exact .inl ⟨conn, rfl, .inl rfl, conn.calls_self⟩
    | true =>
      by_cases hrv : rv = 0
      · subst hrv
        cases alloc with
        | false => exact .inl ⟨_, rfl, .inl rfl, hcalls⟩
        | true =>
          cases dup with
          | false => exact .inr ⟨rfl, rfl, rfl, rfl, rfl, rfl⟩
          | true => exact .inl ⟨_, rfl, .inr ⟨rfl, rfl⟩, hcalls⟩
      rw [if_neg (by simp), if_neg (by simp), if_pos hrv, if_neg (by simp)]
      exact .inl ⟨sendcmd conn (DEBUGADD ++ 32 :: event) rv outs, rfl, .inl rfl, hcalls⟩

lemma asyncunreg_atab (conn : Vdemgmt) (event : List UInt8) (found : UnregFound) :
    (asyncunreg conn event found).atab = atabDel conn.atab event := by
  unfold asyncunreg
  cases found.printed <;> rfl

lemma asyncunreg_dispatch (conn : Vdemgmt) (event : List UInt8) (found : UnregFound) : ∃ new,
    (asyncunreg conn event found).calls = conn.calls ++ new ∧
    Dispatches conn.atab (messages conn (.unreg event found)) (new.map Call.entry) := by
  simp only [asyncunreg, messages]
  cases found.printed with
  | false => exact conn.calls_self
  | true => exact sendcmd_dispatch conn (DEBUGDEL ++ 32 :: event) found.rv found.outs

lemma closeLoop_atab (found : List UnregFound) (conn : Vdemgmt) (h : conn.atab.length ≤ found.length) :
    (closeLoop found conn).atab = [] := by
  induction found generalizing conn with
  | nil => exact eq_nil_of_length_eq_zero (Nat.le_zero.mp h)
  | cons first found ih =>
    rw [closeLoop]
    cases hatab : conn.atab with
    | nil => exact hatab
    | cons t atab =>
      have hdel : (asyncunreg conn t.event first).atab = atab := by
        rw [asyncunreg_atab, hatab]
        exact if_pos ( isPrefixOf_iff_prefix.mpr prefix_rfl)
      refine ih _ ?_
      rw [hdel]
      rw [hatab] at h
      exact Nat.le_of_succ_le_succ h

variable {conn : Vdemgmt}

lemma PrefixOrdered.good (h : PrefixOrdered conn.atab) : TableGood conn :=
  ⟨h, fun found hfound => closeLoop_atab found conn hfound⟩

lemma PrefixOrdered.unregExact (h : PrefixOrdered conn.atab)
    (hmem : ∃ t ∈ conn.atab, t.event = event) : ∃ before t after, conn.atab = before ++ t :: after ∧ t.event =
    event ∧ (∀ s ∈ before ++ after, s.event ≠ event) ∧ atabDel conn.atab event = before ++ after := by
  obtain ⟨t, ht, hevent⟩ := hmem
  obtain ⟨before, after, hatab⟩ := append_of_mem ht
  subst hevent
  rw [hatab] at h ⊢
  exact ⟨before, t, after, rfl, rfl, h.event_ne, h.del_eq⟩

/-- A call that leaves a table keeps its order, and dispatches its messages. -/
lemma PrefixOrdered.step {conn conn' : Vdemgmt} {op : TableOp} (h : PrefixOrdered conn.atab)
    (henabled : tableMachine.enabled (some conn) op) (hstep : tableStep conn op = some conn') :
    PrefixOrdered conn'.atab ∧ OpGood conn op conn' := by
  cases op with
  | reg event callback found =>
    rcases asyncreg_cases conn event callback found with ⟨conn'', hreg, hatab, hcalls⟩ | ⟨hnone, -⟩
    · cases hreg.symm.trans hstep
      refine ⟨?_, hcalls, fun event found hop => by cases hop⟩
      rcases hatab with hsame | ⟨hfind, hadd⟩
      · rwa [hsame]
      rw [hadd]
      exact h.add hfind callback
    · cases hnone.symm.trans hstep
  | unreg event found =>
    cases hstep
    refine ⟨asyncunreg_atab conn event found ▸ h.del event, asyncunreg_dispatch conn event found, ?_⟩
    intro event' found' hop
    cases hop
    rw [asyncunreg_atab]
    exact h.unregExact (henabled conn rfl)
  | sendcmd cmd rv outs =>
    cases hstep
    exact ⟨h, sendcmd_dispatch conn cmd rv outs, fun event found hop => by cases hop⟩
  | asyncrecv recv turns pbuf reads =>
    cases hstep
    obtain ⟨new, hnew, hdispatch⟩ := asyncrecv_dispatches recv conn.atab turns (asyncStart pbuf reads)
    have hcalls : (asyncrecv recv conn.atab turns (asyncStart pbuf reads)).calls = new := hnew
    exact ⟨h, ⟨new, congrArg (conn.calls ++ ·) hcalls, hdispatch⟩, fun event found hop => by cases hop⟩

lemma EventCopied.step {conn : Vdemgmt} {op : TableOp} (h : EventCopied (some conn) op) :
    ∃ conn', tableStep conn op = some conn' := by
  cases op with
  | reg event callback found =>
    rcases asyncreg_cases conn event callback found with ⟨conn', hreg, -⟩ | ⟨-, hfind, hprinted, hrv, halloc, hdup⟩
    · exact ⟨conn', hreg⟩
    rw [h conn event callback found rfl rfl hfind hprinted hrv halloc] at hdup
    cases hdup
  | unreg event found => exact ⟨_, rfl⟩
  | sendcmd cmd rv outs => exact ⟨_, rfl⟩
  | asyncrecv recv turns pbuf reads => exact ⟨_, rfl⟩

lemma EventCopied.lost {op : TableOp} (h : ¬EventCopied (some conn) op) : tableStep conn op = none := by
  unfold EventCopied at h
  push Not at h
  obtain ⟨conn', event, callback, found, hconn, rfl, hfind, hprinted, hrv, halloc, hdup⟩ := h
  cases hconn
  obtain ⟨printed, rv, outs, alloc, dup⟩ := found
  obtain rfl : dup = false := eq_false_iff.mpr hdup
  simp only at hprinted hrv halloc
  simp only [tableStep, asyncreg, hfind, hprinted, hrv, halloc]
  rfl

def noEvents : Vdemgmt := ⟨[], [], []⟩

def accepted : RegFound := ⟨true, 0, [], true, true⟩

/-- An answer to a command with a message for the event `ab` in front of it. -/
def abMessage : UtmOut := ⟨[51, 48, 49, 48, 32, 97, 98, 32, 99], ASYNTAG⟩

def twoEvents : List TableOp :=
  [.reg [97, 98] 1 accepted, .reg [97] 2 accepted, .sendcmd [104] 0 [abMessage], .unreg [97, 98] ⟨true, 0, []⟩,
    .sendcmd [104] 0 [abMessage]]

/-- The second message calls the other event. -/
example : (tableMachine.run (some noEvents) twoEvents).map (fun conn => conn.calls.map fun c => c.entry.callback) =
    some [1, 2] := by
  decide

def Copies (recv : Receive) (m : Message) : Prop :=
  ∀ pbuf reads, 0 ≤ pbuf.pos → (∀ data ∈ reads, data ≠ []) → m.bytes <+: pending pbuf reads →
    recv pbuf reads =
      ⟨m.tag, m.bytes ++ [0], (readchars m.bytes.length pbuf reads).1, (readchars m.bytes.length pbuf reads).2⟩

def AtRead (reads : List (List UInt8)) (n : Nat) : Prop := ∃ k, (reads.take k).flatten.length = n

structure Taken (all : List (List UInt8)) (n : Nat) (pbuf : UtmBuf) (reads : List (List UInt8)) (k : Nat) : Prop where
  pos : 0 ≤ pbuf.pos
  left : reads = all.drop k
  count : (all.take k).flatten.length = n + (pbuf.len - pbuf.pos).toNat
  inside : pbuf.pos < pbuf.len → 0 < pbuf.pos ∧ (all.take (k - 1)).flatten.length < n
  rest : pending pbuf reads = all.flatten.drop n

variable {all reads : List (List UInt8)} {n k : Nat} {pbuf : UtmBuf}

lemma taken_length_mono {j : Nat} (h : j ≤ k) : (all.take j).flatten.length ≤ (all.take k).flatten.length := by
  obtain ⟨more, hmore⟩ := take_prefix_take_left (l := all) h
  rw [← hmore, flatten_append, length_append]
  exact Nat.le_add_right _ _

lemma Taken.atRead_iff (h : Taken all n pbuf reads k) : AtRead all n ↔ pbuf.len ≤ pbuf.pos := by
  have hcount := h.count
  constructor
  · rintro ⟨j, hj⟩
    by_contra hin
    obtain ⟨-, hbefore⟩ := h.inside (Int.lt_of_not_ge hin)
    -- the end of a read is not between the ends of two that follow each other
    by_cases hle : j ≤ k - 1
    · have hmono : (all.take j).flatten.length ≤ (all.take (k - 1)).flatten.length := taken_length_mono hle
      omega
    have hle' : k ≤ j := by omega
    have hmono : (all.take k).flatten.length ≤ (all.take j).flatten.length := taken_length_mono hle'
    omega
  intro hdone
  exact ⟨k, by omega⟩

lemma readchar_buffered (hin : pbuf.pos < pbuf.len) (poll : PollResult) :
    readchar pbuf poll = (some (pbuf.buf pbuf.pos.toNat), { pbuf with pos := pbuf.pos + 1 }) := by
  unfold readchar
  exact if_neg (Int.not_le.mpr hin)

variable {data : List UInt8}

lemma readchar_read (hdone : pbuf.len ≤ pbuf.pos) (hdata : data ≠ []) :
    readchar pbuf (.read data) = (some (memcpy pbuf.buf 0 data 0), ⟨memcpy pbuf.buf 0 data, data.length, 1⟩) := by
  rw [readchar, if_pos hdone]
  exact if_neg hdata

lemma pending_same (hpos : 0 ≤ pbuf.pos) (hin : pbuf.pos < pbuf.len) :
    pending (readchar pbuf .timeout).2 reads = (pending pbuf reads).drop 1 := by
  have hsize : (pbuf.len - (pbuf.pos + 1)).toNat = (pbuf.len - pbuf.pos).toNat - 1 := by omega
  have hplace : (pbuf.pos + 1).toNat = pbuf.pos.toNat + 1 := by omega
  rw [readchar_buffered hin, pending, pending, drop_append_of_le_length]
  · dsimp only
    rw [hplace, hsize, readBytes_drop]
    omega
  rw [readBytes_length]
  omega

lemma pending_next (hdone : pbuf.len ≤ pbuf.pos) (hdata : data ≠ []) :
    pending (readchar pbuf (.read data)).2 reads = (pending pbuf (data :: reads)).drop 1 := by
  have hlen : 0 < data.length := length_pos_of_ne_nil hdata
  have hempty : (pbuf.len - pbuf.pos).toNat = 0 := by omega
  rw [readchar_read hdone hdata, pending, pending, hempty]
  dsimp only
  have hone : (1 : Int).toNat = 0 + 1 := rfl
  have hsize : ((data.length : Int) - 1).toNat = data.length - 1 := by omega
  rw [hone, hsize, ← readBytes_drop _ 0 hlen, readBytes_memcpy_self]
  change data.drop 1 ++ reads.flatten = (data :: reads).flatten.drop 1
  rw [flatten_cons, drop_append_of_le_length (by omega)]

lemma Taken.same (h : Taken all n pbuf reads k) (hin : pbuf.pos < pbuf.len) :
    Taken all (n + 1) (readchar pbuf .timeout).2 reads k := by
  have hpos := h.pos
  have hcount := h.count
  have hbefore := (h.inside hin).2
  have hrest : pending (readchar pbuf .timeout).2 reads = all.flatten.drop (n + 1) := by
    rw [pending_same hpos hin, h.rest, drop_drop]
  rw [readchar_buffered hin] at hrest ⊢
  refine ⟨?_, h.left, ?_, fun _ => ⟨?_, by omega⟩, hrest⟩
  · dsimp only
    omega
  · dsimp only
    omega
  dsimp only
  omega

lemma Taken.next {reads : List (List UInt8)} (h : Taken all n pbuf (data :: reads) k)
    (hdone : pbuf.len ≤ pbuf.pos) (hdata : data ≠ []) : Taken all (n + 1) (readchar pbuf (.read data)).2 reads (k + 1) := by
  have hlen : 0 < data.length := length_pos_of_ne_nil hdata
  have hcount := h.count
  have hempty : (pbuf.len - pbuf.pos).toNat = 0 := by omega
  have htake : (all.take (k + 1)).flatten.length = n + data.length := by
    have hall : all = all.take k ++ data :: reads := by
      rw [h.left]
      exact (take_append_drop k all).symm
    have hk : (all.take k).length = k := by
      rw [length_take]
      have hdrop := congrArg length h.left
      rw [length_drop, length_cons] at hdrop
      omega
    have hnext : all.take (k + 1) = all.take k ++ [data] := by
      conv_lhs => rw [hall]
      rw [take_append, hk, take_of_length_le (by omega), Nat.add_sub_cancel_left]
      rfl
    rw [hnext, flatten_append, length_append, hcount, hempty, flatten_singleton]
    omega
  have hrest : pending (readchar pbuf (.read data)).2 reads = all.flatten.drop (n + 1) := by
    rw [pending_next hdone hdata, h.rest, drop_drop]
  rw [readchar_read hdone hdata] at hrest ⊢
  refine ⟨Int.one_nonneg, ?_, ?_, fun _ => ⟨Int.one_pos, ?_⟩, hrest⟩
  · rw [← drop_drop, ← h.left]
    rfl
  · dsimp only
    omega
  rw [Nat.add_sub_cancel]
  omega

lemma Taken.reads_ne (h : Taken all n pbuf reads k) (hall : ∀ data ∈ all, data ≠ []) : ∀ data ∈ reads, data ≠ [] := by
  intro data hdata
  rw [h.left] at hdata
  exact hall data (mem_of_mem_drop hdata)

lemma Taken.readchars {m : Nat} (h : Taken all n pbuf reads k) (hall : ∀ data ∈ all, data ≠ [])
    (hm : n + m ≤ all.flatten.length) :
    ∃ k', Taken all (n + m) (readchars m pbuf reads).1 (readchars m pbuf reads).2 k' := by
  induction m generalizing n pbuf reads k with
  | zero => exact ⟨k, h⟩
  | succ m ih =>
    rw [Mgmt.readchars]
    have hnum : n + (m + 1) = n + 1 + m := by omega
    rw [hnum]
    by_cases hdone : pbuf.len ≤ pbuf.pos
    · rw [if_pos hdone]
      cases hreads : reads with
      | nil =>
        -- nothing is left
        have hcount := h.count
        have hleft := congrArg length (hreads ▸ h.left)
        rw [length_drop, length_nil] at hleft
        rw [take_of_length_le (by omega)] at hcount
        omega
      | cons data reads =>
        have hdata : data ≠ [] := h.reads_ne hall data (hreads ▸ mem_cons_self)
        exact ih ((hreads ▸ h).next hdone hdata) (by omega)
    rw [if_neg hdone]
    exact ih (h.same (Int.lt_of_not_ge hdone)) (by omega)

/-! ## Calls -/

def Message.line (m : Message) : List UInt8 := m.text ++ [10]

def rightCall (atab : List Asynctab) (m : Message) : Option Call :=
  (atabFind atab m.line).map fun t => ⟨t, m.tag, t.event.length + SKIPHEAD + 1⟩

def BeginReads (atab : List Asynctab) (reads : List (List UInt8)) : Nat → List Message → Prop
  | _, [] => True
  | n, m :: ms =>
    ((atabFind atab m.line).isSome → AtRead reads n) ∧ BeginReads atab reads (n + m.bytes.length) ms

lemma eventText_bytes (m : Message) : eventText (m.bytes ++ [0]) = m.line := by
  have hdrop : (m.bytes ++ [0]).drop SKIPHEAD = m.line ++ [0] := by
    rw [Message.bytes, Message.line, append_assoc, append_assoc, append_assoc]
    rfl
  have hplain : ∀ c ∈ m.line, (c != 0) = true := by
    intro c hc
    rw [bne_iff_ne]
    cases mem_append.mp hc with
    | inl htext => exact (m.plain c htext).1
    | inr hend =>
      rw [mem_singleton.mp hend]
      decide
  rw [eventText, hdrop, cString, takeWhile_append_of_pos hplain]
  exact append_nil _

@[simp] lemma enter_calls (r : AsyncRun) : r.enter.calls = r.calls := by
  unfold AsyncRun.enter
  cases r.again <;> rfl

@[simp] lemma enter_pbuf (r : AsyncRun) : r.enter.pbuf = r.pbuf := by
  unfold AsyncRun.enter
  cases r.again <;> rfl

@[simp] lemma enter_reads (r : AsyncRun) : r.enter.reads = r.reads := by
  unfold AsyncRun.enter
  cases r.again <;> rfl

variable {recv : Receive}

lemma asyncTurn_eq (atab : List Asynctab) {m : Message} {r : AsyncRun} (hcopies : Copies recv m)
    (hpos : 0 ≤ r.pbuf.pos) (hreads : ∀ data ∈ r.reads, data ≠ []) (hm : m.bytes <+: pending r.pbuf r.reads) :
    asyncTurn recv atab r.enter =
      { pbuf := (readchars m.bytes.length r.pbuf r.reads).1
        reads := (readchars m.bytes.length r.pbuf r.reads).2
        prevpos := (readchars m.bytes.length r.pbuf r.reads).1.pos
        again := decide ((readchars m.bytes.length r.pbuf r.reads).1.pos <
          (readchars m.bytes.length r.pbuf r.reads).1.len)
        calls := r.calls ++ ((atabFind atab m.line).map fun t =>
          ⟨t, m.tag, t.event.length + SKIPHEAD + 1 + r.enter.prevpos⟩).toList } := by
  have htag : ¬(m.tag : Int) = -1 := by omega
  unfold asyncTurn
  rw [enter_pbuf, enter_reads, hcopies r.pbuf r.reads hpos hreads hm, enter_calls]
  dsimp only
  rw [if_neg htag, eventText_bytes]
  cases atabFind atab m.line with
  | none =>
    dsimp only [Option.map_none, Option.toList_none]
    rw [append_nil]
  | some t => rfl

lemma asyncTurn_calls (recv : Receive) (atab : List Asynctab) (r : AsyncRun) :
    r.calls <+: (asyncTurn recv atab r).calls := by
  unfold asyncTurn
  dsimp only
  split_ifs
  · exact prefix_rfl
  cases atabFind atab (eventText (recv r.pbuf r.reads).buf) with
  | none => exact prefix_rfl
  | some t => exact prefix_append _ _

lemma asyncrecv_calls (recv : Receive) (atab : List Asynctab) (turns : Nat) (r : AsyncRun) :
    r.calls <+: (asyncrecv recv atab turns r).calls := by
  induction turns generalizing r with
  | zero => exact prefix_rfl
  | succ turns ih =>
    have hturn := asyncTurn_calls recv atab r.enter
    rw [enter_calls] at hturn
    exact hturn.trans (ih _)

structure TurnInv (all : List (List UInt8)) (n : Nat) (r : AsyncRun) : Prop where
  taken : ∃ k, Taken all n r.pbuf r.reads k
  prevpos : r.enter.prevpos = 0 ↔ AtRead all n

lemma turnInv_start (all : List (List UInt8)) (hdone : pbuf.len ≤ pbuf.pos) (hpos : 0 ≤ pbuf.pos) :
    TurnInv all 0 (asyncStart pbuf all) where
  taken := by
    have hempty : (pbuf.len - pbuf.pos).toNat = 0 := by omega
    refine ⟨0, hpos, rfl, ?_, fun hin => absurd hin (Int.not_lt.mpr hdone), ?_⟩
    · change 0 = 0 + (pbuf.len - pbuf.pos).toNat
      omega
    change readBytes pbuf.buf pbuf.pos.toNat (pbuf.len - pbuf.pos).toNat ++ all.flatten = all.flatten
    rw [hempty]
    rfl
  prevpos := ⟨fun _ => ⟨0, rfl⟩, fun _ => rfl⟩

lemma TurnInv.turn {m : Message} {r : AsyncRun} (h : TurnInv all n r)
    (hall : ∀ data ∈ all, data ≠ []) (hcopies : Copies recv m) (hm : m.bytes <+: all.flatten.drop n)
    (atab : List Asynctab) : TurnInv all (n + m.bytes.length) (asyncTurn recv atab r.enter) := by
  obtain ⟨k, htaken⟩ := h.taken
  have hroom : n + m.bytes.length ≤ all.flatten.length := by
    have hlen := hm.length_le
    have hpos : 0 < m.bytes.length := by
      rw [Message.bytes, length_append]
      exact Nat.succ_pos _
    rw [length_drop] at hlen
    omega
  obtain ⟨k', hnext⟩ := htaken.readchars hall hroom
  rw [asyncTurn_eq atab hcopies htaken.pos (htaken.reads_ne hall) (htaken.rest ▸ hm)]
  refine ⟨⟨k', hnext⟩, ?_⟩
  rw [hnext.atRead_iff, AsyncRun.enter]
  dsimp only
  by_cases hin : (readchars m.bytes.length r.pbuf r.reads).1.pos < (readchars m.bytes.length r.pbuf r.reads).1.len
  · have hpos := (hnext.inside hin).1
    rw [if_pos (decide_eq_true hin)]
    dsimp only
    constructor
    · intro hzero
      omega
    intro hdone
    omega
  rw [decide_eq_false hin, if_neg Bool.false_ne_true]
  exact ⟨fun _ => Int.not_lt.mp hin, fun _ => rfl⟩

lemma asyncrecv_iff {r : AsyncRun} (atab : List Asynctab) (ms : List Message)
    (hall : ∀ data ∈ all, data ≠ []) (hcopies : ∀ m ∈ ms, Copies recv m)
    (hms : all.flatten.drop n = ms.flatMap Message.bytes) (h : TurnInv all n r) :
    (asyncrecv recv atab ms.length r).calls = r.calls ++ ms.filterMap (rightCall atab) ↔ BeginReads atab all n ms := by
  induction ms generalizing n r with
  | nil => exact ⟨fun _ => trivial, fun _ => (append_nil _).symm⟩
  | cons m ms ih =>
    rw [flatMap_cons] at hms
    have hfirst : Copies recv m := hcopies m mem_cons_self
    have hm : m.bytes <+: all.flatten.drop n := hms ▸ prefix_append _ _
    have hrest : all.flatten.drop (n + m.bytes.length) = ms.flatMap Message.bytes := by
      rw [← drop_drop, hms, drop_left]
    obtain ⟨k, htaken⟩ := h.taken
    have hnext := ih (fun m hm => hcopies m (mem_cons_of_mem _ hm)) hrest (h.turn hall hfirst hm atab)
    have hcalls := congrArg AsyncRun.calls (asyncTurn_eq atab hfirst htaken.pos (htaken.reads_ne hall) (htaken.rest ▸ hm))
    have hmore := asyncrecv_calls recv atab ms.length (asyncTurn recv atab r.enter)
    rw [length_cons, asyncrecv, BeginReads, ← hnext]
    dsimp only at hcalls
    rw [hcalls] at hmore ⊢
    cases hfind : atabFind atab m.line with
    | none =>
      have hno : rightCall atab m = none := by
        rw [rightCall, hfind]
        rfl
      rw [filterMap_cons_none hno]
      dsimp only [Option.map_none, Option.toList_none]
      rw [append_nil]
      exact ⟨fun heq => ⟨fun hsome => absurd hsome false_ne_true, heq⟩, fun heq => heq.2⟩
    | some t =>
      have hsome : rightCall atab m = some ⟨t, m.tag, t.event.length + SKIPHEAD + 1⟩ := by
        rw [rightCall, hfind]
        rfl
      rw [hfind] at hmore
      rw [filterMap_cons_some hsome]
      dsimp only [Option.map_some, Option.toList_some] at hmore ⊢
      constructor
      · intro heq
        -- the first of the new calls is the one of this message
        rw [heq, prefix_append_right_inj, cons_prefix_cons] at hmore
        have hzero : r.enter.prevpos = 0 := by
          have hdata := congrArg Call.data hmore.1
          dsimp only at hdata
          omega
        refine ⟨fun _ => h.prevpos.mp hzero, ?_⟩
        rw [heq, hzero, Int.add_zero, append_assoc]
        rfl
      rintro ⟨hat, heq⟩
      rw [heq, h.prevpos.mpr (hat rfl), Int.add_zero, append_assoc]
      rfl

/-! ## The receive machine -/

def nextPoll (pbuf : UtmBuf) (reads : List (List UInt8)) : PollResult :=
  if pbuf.len ≤ pbuf.pos then .read (reads.headD []) else .timeout

def nextReads (pbuf : UtmBuf) (reads : List (List UInt8)) : List (List UInt8) :=
  if pbuf.len ≤ pbuf.pos then reads.tail else reads

lemma readchars_succ (n : Nat) (pbuf : UtmBuf) (reads : List (List UInt8)) :
    readchars (n + 1) pbuf reads = readchars n (readchar pbuf (nextPoll pbuf reads)).2 (nextReads pbuf reads) := by
  rw [readchars, nextPoll, nextReads]
  by_cases hdone : pbuf.len ≤ pbuf.pos
  · rw [if_pos hdone, if_pos hdone, if_pos hdone]
  · rw [if_neg hdone, if_neg hdone, if_neg hdone]

lemma readchar_next {c : UInt8} {cs : List UInt8} (hpos : 0 ≤ pbuf.pos) (hreads : ∀ data ∈ reads, data ≠ [])
    (h : c :: cs <+: pending pbuf reads) : (readchar pbuf (nextPoll pbuf reads)).1 = some c ∧
    cs <+: pending (readchar pbuf (nextPoll pbuf reads)).2 (nextReads pbuf reads) ∧
    0 ≤ (readchar pbuf (nextPoll pbuf reads)).2.pos ∧ ∀ data ∈ nextReads pbuf reads, data ≠ [] := by
  obtain ⟨more, hmore⟩ := h
  by_cases hdone : pbuf.len ≤ pbuf.pos
  · have hempty : (pbuf.len - pbuf.pos).toNat = 0 := by omega
    have hflat : reads.flatten = c :: (cs ++ more) := by
      rw [pending, hempty] at hmore
      exact hmore.symm
    cases reads with
    | nil => cases hflat
    | cons data reads =>
      have hdata : data ≠ [] := hreads data mem_cons_self
      have hpend : pending (readchar pbuf (.read data)).2 reads = cs ++ more := by
        rw [pending_next hdone hdata, ← hmore]
        rfl
      rw [nextPoll, nextReads, if_pos hdone, if_pos hdone, headD_cons, tail_cons]
      refine ⟨?_, ?_, ?_, fun d hd => hreads d (mem_cons_of_mem _ hd)⟩
      · rw [readchar_read hdone hdata]
        cases data with
        | nil => exact absurd rfl hdata
        | cons d data =>
          have hd : d = c := by
            rw [flatten_cons] at hflat
            exact (List.cons.inj hflat).1
          rw [← hd]
          rfl
      · rw [hpend]
        exact prefix_append _ _
      rw [readchar_read hdone hdata]
      exact Int.one_nonneg
  have hin : pbuf.pos < pbuf.len := Int.lt_of_not_ge hdone
  have hpend : pending (readchar pbuf .timeout).2 reads = cs ++ more := by
    rw [pending_same hpos hin, ← hmore]
    rfl
  rw [nextPoll, nextReads, if_neg hdone, if_neg hdone]
  refine ⟨?_, ?_, ?_, hreads⟩
  · rw [readchar_buffered hin]
    have hsize : 0 < (readBytes pbuf.buf pbuf.pos.toNat (pbuf.len - pbuf.pos).toNat).length := by
      rw [readBytes_length]
      omega
    have hbyte := congrArg (fun bs => bs[0]?) hmore
    rw [pending, getElem?_append_left hsize, getElem?_eq_getElem hsize, readBytes_getElem] at hbyte
    exact hbyte.symm
  · rw [hpend]
    exact prefix_append _ _
  rw [readchar_buffered hin]
  dsimp only
  omega

def lineOf (r : Run) : List UInt8 := readBytes r.linebuf.elems 0 r.len

variable {r r' : Run} {next : List UtmState}

lemma grow_line (h : CursorInv r) (poll : PollResult) (hroom : r.len + BUFSIZE < 2 ^ 31) :
    ∃ linebuf addr size,
      r.grow (found poll) = some { r with linebuf := linebuf, addr := addr, linebufsize := size } ∧
        ∀ i, i < r.len → linebuf.elems i = r.linebuf.elems i := by
  unfold Run.grow
  by_cases hfull : r.len = r.linebufsize
  · rw [if_pos hfull, if_pos ⟨rfl, hfull ▸ hroom⟩]
    refine ⟨_, _, _, rfl, fun i hi => ?_⟩
    have hline : r.hasLine = true := by
      by_contra hno
      have hzero := h.empty (eq_false_iff.mpr hno)
      omega
    have hsize := h.size hline
    exact if_pos (by omega)
  rw [if_neg hfull]
  exact ⟨_, _, _, rfl, fun i _ => rfl⟩

def kept (r : Run) : List UtmState × Int × UtmOut × Option Ending := (r.status, r.curr, r.out, r.ended)

lemma endsWith_newline (r : Run) (hlen : 0 < r.len) : r.endsWith [10] = (r.linebuf.elems (r.len - 1) == 10) := by
  have hone : [(10 : UInt8)].length ≤ r.len := hlen
  rw [Run.endsWith, decide_eq_true hone, Bool.true_and]
  change (r.linebuf.elems (r.len - 1 + 0) == 10 && true) = _
  rw [Nat.add_zero, Bool.and_true]

variable {s : UtmState}

lemma input_byte {c : UInt8} {inbuf : UtmBuf} {poll : PollResult} (prog next : List UtmState)
    (h : CursorInv r) (hpattern : s.string = [10]) (hroom : r.len + BUFSIZE < 2 ^ 31)
    (hread : readchar r.inbuf poll = (some c, inbuf)) :
    ∃ r', r.input prog s next (found poll) = r' ∧ lineOf r' = lineOf r ++ [c] ∧ r'.inbuf = inbuf ∧
      kept r' = kept { r with status := if c = 10 then next else r.status } ∧
      r'.reading = decide (c ≠ 10) := by
  obtain ⟨linebuf, addr, size, hgrow, hsame⟩ := grow_line h poll hroom
  obtain ⟨-, -, hfit, hsize⟩ := h.grow hgrow
  dsimp only at hfit hsize
  have hin : r.len < linebuf.size := by omega
  have hin' : r.len + 1 < linebuf.size := by omega
  have hline : readBytes (update linebuf.elems r.len c) 0 r.len = lineOf r := by
    refine readBytes_congr fun i hi => ?_
    rw [Nat.zero_add, update_of_ne (Nat.ne_of_lt hi)]
    exact hsame i hi
  have hall : readBytes (update linebuf.elems r.len c) 0 (r.len + 1) = lineOf r ++ [c] := by
    have hlast : readBytes (update linebuf.elems r.len c) (0 + r.len) 1 = [c] := by
      rw [Nat.zero_add]
      exact congrArg (fun b => [b]) (update_self r.len c linebuf.elems)
    rw [readBytes_append, hline, hlast]
  obtain ⟨r2, hr2⟩ : ∃ r2 : Run, r2 =
      { r with
        linebuf := { linebuf with elems := update linebuf.elems r.len c }
        addr := addr
        linebufsize := size
        inbuf := inbuf
        len := r.len + 1 } := ⟨_, rfl⟩
  have hinput : r.input prog s next (found poll) =
      if r2.endsWith [10] then { r2.put r2.len 0 with reading := false, status := next } else { r2 with reading := true } := by
    have hread' : readchar r.inbuf (found poll).poll = (some c, inbuf) := hread
    unfold Run.input
    rw [hgrow]
    dsimp only
    rw [hread']
    dsimp only
    rw [put_eq (r := { r with linebuf := linebuf, addr := addr, linebufsize := size, inbuf := inbuf }) hin, hpattern, hr2]
  have hends : r2.endsWith [10] = (c == 10) := by
    rw [endsWith_newline r2 (hr2 ▸ Nat.succ_pos _), hr2]
    dsimp only
    rw [Nat.add_sub_cancel, update_self]
  rw [hinput, hends]
  by_cases hend : c = 10
  · rw [if_pos (beq_iff_eq.mpr hend), if_pos hend, put_eq]
    · refine ⟨_, rfl, ?_, ?_, ?_, ?_⟩
      · rw [← hall, hr2]
        refine readBytes_congr fun i hi => ?_
        rw [Nat.zero_add]
        exact update_of_ne (Nat.ne_of_lt hi) _ _
      · rw [hr2]
      · rw [hr2]
        rfl
      · exact (decide_eq_false (not_not_intro hend)).symm
    rw [hr2]
    exact hin'
  rw [if_neg fun hno => hend (beq_iff_eq.mp hno), if_neg hend, hr2]
  exact ⟨_, rfl, hall, rfl, rfl, (decide_eq_true hend).symm⟩

@[simp] lemma lineOf_length (r : Run) : (lineOf r).length = r.len := readBytes_length _ _ _

lemma utmTurns_in (prog : List UtmState) (turns : Nat) (reads : List (List UInt8)) (hstatus : r.status = s :: next)
    (hcommand : s.command = .IN) (hrunning : r.ended = none) : utmTurns prog (turns + 1) r reads =
    utmTurns prog turns (r.input prog s next (found (nextPoll r.inbuf reads))) (nextReads r.inbuf reads) := by
  have hstep : ∀ poll, runStep prog r (found poll) = r.input prog s next (found poll) := by
    intro poll
    unfold runStep
    rw [hstatus]
    dsimp only
    unfold Cmd.runState
    rw [hcommand]
  have hneeds : needsRead r = decide (r.inbuf.len ≤ r.inbuf.pos) := by
    rw [needsRead, hstatus]
    change ((some s.command == some Command.IN) && _) = _
    rw [hcommand]
    rfl
  rw [utmTurns, hrunning, hneeds, nextPoll, nextReads]
  by_cases hdone : r.inbuf.len ≤ r.inbuf.pos
  · rw [decide_eq_true hdone, if_pos hdone, if_pos hdone, hstep]
    rfl
  rw [decide_eq_false hdone, if_neg hdone, if_neg hdone, if_neg Bool.false_ne_true, hstep]
  rfl

lemma readLine {cs : List UInt8} (next : List UtmState) (turns : Nat) (hcommand : s.command = .IN) (hpattern : s.string = [10])
    (prog : List UtmState) (h : CursorInv r) (hstatus : r.status = s :: next) (hrunning : r.ended = none)
    (hpos : 0 ≤ r.inbuf.pos) (hreads : ∀ data ∈ reads, data ≠ []) (hplain : ∀ c ∈ cs, c ≠ 10)
    (hpend : cs ++ [10] <+: pending r.inbuf reads) (hroom : r.len + cs.length + BUFSIZE < 2 ^ 31) :
    ∃ r', utmTurns prog (turns + (cs.length + 1)) r reads =
          utmTurns prog turns r' (readchars (cs.length + 1) r.inbuf reads).2 ∧
        CursorInv r' ∧ lineOf r' = lineOf r ++ cs ++ [10] ∧ r'.inbuf = (readchars (cs.length + 1) r.inbuf reads).1 ∧
        kept r' = kept { r with status := next } ∧ r'.reading = false := by
  induction cs generalizing r reads with
  | nil =>
    obtain ⟨hbyte, -⟩ := readchar_next hpos hreads hpend
    obtain ⟨r', hinput, hline, hinbuf, hkept, hreading⟩ :=
      input_byte prog next h hpattern hroom (Prod.ext hbyte rfl)
    refine ⟨r', ?_, ?_, ?_, ?_, ?_, hreading⟩
    · rw [length_nil, Nat.zero_add, utmTurns_in prog turns reads hstatus hcommand hrunning, hinput, readchars_succ]
      rfl
    · rw [← hinput]
      exact h.takes hstatus hcommand prog _
    · rw [hline, append_nil]
    · rw [hinbuf, length_nil, readchars_succ]
      rfl
    · rw [hkept, if_pos rfl]
  | cons c cs ih =>
    obtain ⟨hbyte, hpend', hpos', hreads'⟩ := readchar_next hpos hreads hpend
    have hc : ¬c = 10 := hplain c mem_cons_self
    rw [length_cons] at hroom
    obtain ⟨r1, hinput, hline, hinbuf, hkept, hreading⟩ :=
      input_byte prog next h hpattern (by omega) (Prod.ext hbyte rfl)
    rw [if_neg hc] at hkept
    have hinv : CursorInv r1 := hinput ▸ h.takes hstatus hcommand prog _
    have hlen : r1.len = r.len + 1 := by
      rw [← lineOf_length, hline, length_append, lineOf_length]
      rfl
    have hstatus1 : r1.status = s :: next := (congrArg Prod.fst hkept).trans hstatus
    have hrunning1 : r1.ended = none := (congrArg (fun k => k.2.2.2) hkept).trans hrunning
    obtain ⟨r', hturns, hinv', hline', hinbuf', hkept', hreading'⟩ :=
      ih hinv hstatus1 hrunning1 (hinbuf ▸ hpos') hreads' (fun d hd => hplain d (mem_cons_of_mem _ hd))
        (hinbuf ▸ hpend') (by omega)
    refine ⟨r', ?_, hinv', ?_, ?_, ?_, hreading'⟩
    · rw [length_cons, ← Nat.add_assoc, utmTurns_in prog _ reads hstatus hcommand hrunning, hinput,
        readchars_succ (cs.length + 1), hturns, hinbuf]
    · rw [hline', hline, append_assoc (lineOf r)]
      rfl
    · rw [hinbuf', hinbuf, length_cons, readchars_succ (cs.length + 1)]
    · rw [hkept']
      unfold kept at hkept ⊢
      rw [Prod.mk.injEq, Prod.mk.injEq, Prod.mk.injEq] at hkept
      obtain ⟨-, hcurr, hout, hended⟩ := hkept
      dsimp only
      rw [hcurr, hout, hended]

lemma utmTurns_other (prog : List UtmState) (turns : Nat) (reads : List (List UInt8))
    (hstatus : r.status = s :: next) (hcommand : s.command ≠ .IN) (hrunning : r.ended = none) :
    utmTurns prog (turns + 1) r reads = utmTurns prog turns (runState prog r s next (found .timeout)) reads := by
  have hneeds : needsRead r = false := by
    rw [needsRead, hstatus]
    change ((some s.command == some Command.IN) && _) = _
    rw [and_eq_false_iff]
    exact .inl (beq_eq_false_iff_ne.mpr fun hno => hcommand (Option.some.inj hno))
  rw [utmTurns, hrunning, hneeds, if_neg Bool.false_ne_true]
  unfold runStep
  rw [hstatus]
  rfl

lemma textAt_eq (h : CursorInv r) (hread : r.reading = false) (hline : r.hasLine = true)
    (hplain : ∀ c ∈ lineOf r, c ≠ 0) {i : Nat} (hi : i ≤ r.len) : r.textAt i = (lineOf r).drop i := by
  have hlen := h.len
  have hend := (Block.load_eq_some.mp (h.ends hline hread)).2
  have hsize : r.linebuf.size - i = (r.len - i) + (1 + (r.linebufsize - r.len)) := by
    have := h.size hline
    omega
  have hzero : readBytes r.linebuf.elems (i + (r.len - i)) 1 = [0] := by
    rw [Nat.add_sub_cancel' hi]
    exact congrArg (fun b => [b]) hend
  have hdrop : readBytes r.linebuf.elems i (r.len - i) = (lineOf r).drop i := by
    rw [lineOf, readBytes_drop _ 0 hi, Nat.zero_add]
  rw [Run.textAt, hsize, readBytes_append, readBytes_append, hzero, hdrop]
  exact cString_append_zero (fun c hc => hplain c (mem_of_mem_drop hc)) _

lemma Message.bytes_plain (m : Message) : ∀ c ∈ m.head ++ m.text, c ≠ 0 ∧ c ≠ 10 := by
  have hhead : ∀ tag < 64, ([51, 48, 48 + UInt8.ofNat (tag / 8), 48 + UInt8.ofNat (tag % 8), 32].all fun c =>
      c != 0 && c != 10) = true := by decide
  intro c hc
  cases mem_append.mp hc with
  | inl h => simpa using all_eq_true.mp (hhead m.tag m.tag_lt) c h
  | inr h => exact m.plain c h

lemma strtol_tag (m : Message) : toInt32 (strtol (m.bytes.drop 2) 8) = m.tag := by
  have htag := m.tag_lt
  have hdigits : ∀ d ∈ [m.tag / 8, m.tag % 8], d < 8 := by
    rw [forall_mem_cons, forall_mem_singleton]
    omega
  have hnumber : number 8 [m.tag / 8, m.tag % 8] = m.tag := by
    simp only [number, foldl_cons, foldl_nil]
    omega
  have hdrop : m.bytes.drop 2 = digits [m.tag / 8, m.tag % 8] ++ 32 :: (m.text ++ [10]) := by
    rw [Message.bytes, append_assoc]
    rfl
  rw [hdrop, strtol_digits (by decide) hdigits _ (cons_ne_nil _ _) (by omega), hnumber]
  exact show 8 ≤ digitValue 32 by decide

lemma asyncrecvRc_tail (m : Message) (turns : Nat) (reads : List (List UInt8)) (h : CursorInv r)
    (hread : r.reading = false) (hkept : kept r = (asyncrecvProgram.tail, 0, ⟨[], 0⟩, none))
    (hline : lineOf r = m.bytes) : ∃ r', utmTurns asyncrecvProgram (turns + 6) r reads = (r', reads) ∧ r'.ended =
    some (.ret m.tag) ∧ r'.out.buf = m.bytes ++ [0] ∧ r'.inbuf = r.inbuf := by
  unfold kept at hkept
  rw [Prod.mk.injEq, Prod.mk.injEq, Prod.mk.injEq] at hkept
  obtain ⟨hstatus, hcurr, hout, hended⟩ := hkept
  have hbytes : m.bytes.length = m.text.length + 6 := by
    rw [Message.bytes, length_append, length_append]
    change 5 + m.text.length + 1 = _
    omega
  have hlen : r.len = m.text.length + 6 := by rw [← lineOf_length, hline, hbytes]
  have hhas : r.hasLine = true := by
    by_contra hno
    have hzero := h.empty (eq_false_iff.mpr hno)
    have hfit := h.len
    omega
  have hplain : ∀ c ∈ lineOf r, c ≠ 0 := by
    intro c hc
    rw [hline] at hc
    cases mem_append.mp hc with
    | inl hbody => exact (m.bytes_plain c hbody).1
    | inr hend =>
      rw [mem_singleton.mp hend]
      decide
  have htext : ∀ i, i ≤ r.len → r.textAt i = m.bytes.drop i := by
    intro i hi
    rw [textAt_eq h hread hhas hplain hi, hline]
  have hprefix : [51, 48].isPrefixOf m.bytes = true := by
    rw [Message.bytes, append_assoc]
    rfl
  have hsize : (r.len : Int) < r.linebuf.size := by
    have hfit := h.len
    have hblock := h.size hhas
    omega
  have hzero : r.text (found .timeout) = m.bytes := by
    rw [Run.text, hcurr, if_pos ⟨Int.le_refl 0, by omega⟩]
    exact htext 0 (Nat.zero_le _)
  have htwo : Run.text { r with curr := 2 } (found .timeout) = m.bytes.drop 2 := by
    have hin : 0 ≤ (2 : Int) ∧ (2 : Int) < r.linebuf.size := by omega
    rw [Run.text, if_pos hin]
    exact htext 2 (by omega)
  obtain ⟨r1, hr1⟩ : ∃ r1 : Run, r1 = { r with status := asyncrecvProgram.drop 3 } := ⟨_, rfl⟩
  have hif : runState asyncrecvProgram r ⟨2, .IF, [51, 48], 10⟩ (asyncrecvProgram.drop 2) (found .timeout) = r1 := by
    unfold runState
    dsimp only
    rw [hhas, hzero, hprefix, hr1]
    rfl
  obtain ⟨r2, hr2⟩ : ∃ r2 : Run, r2 = { r1 with status := asyncrecvProgram.drop 4, out := ⟨m.bytes ++ [0], 0⟩ } := ⟨_, rfl⟩
  have hcopy : runState asyncrecvProgram r1 ⟨10, .COPY, [], 0⟩ (asyncrecvProgram.drop 4) (found .timeout) = r2 := by
    have htext1 : r1.text (found .timeout) = m.bytes := hr1 ▸ hzero
    have hhas1 : r1.hasLine = true := hr1 ▸ hhas
    unfold runState
    dsimp only
    rw [if_pos hhas1, htext1, hr2, hr1, hout]
    rfl
  obtain ⟨r3, hr3⟩ : ∃ r3 : Run, r3 = { r2 with status := asyncrecvProgram.drop 5, curr := 2 } := ⟨_, rfl⟩
  have hskip : runState asyncrecvProgram r2 ⟨11, .SKIP, [], 2⟩ (asyncrecvProgram.drop 5) (found .timeout) = r3 := by
    have hhas2 : r2.hasLine = true := by
      rw [hr2, hr1]
      exact hhas
    have hcurr2 : toInt32 (r2.curr + 2) = 2 := by
      rw [hr2, hr1]
      dsimp only
      rw [hcurr]
      rfl
    have hlen2 : ¬(r2.len : Int) < 2 := by
      rw [hr2, hr1]
      dsimp only
      omega
    unfold runState
    dsimp only
    rw [if_pos hhas2]
    unfold Run.skip
    dsimp only
    have hnone : ¬(([] : List UInt8) ≠ [] ∧ (strstr (r2.textAt 0) []).isSome = true) := fun hno => hno.1 rfl
    rw [if_neg hnone, hcurr2, if_neg hlen2, hr3]
  obtain ⟨r4, hr4⟩ : ∃ r4 : Run, r4 = { r3 with status := asyncrecvProgram.drop 6, rv := m.tag } := ⟨_, rfl⟩
  have hrvatoi : runState asyncrecvProgram r3 ⟨12, .RVATOI, [], 8⟩ (asyncrecvProgram.drop 6) (found .timeout) = r4 := by
    have hhas3 : r3.hasLine = true := by
      rw [hr3, hr2, hr1]
      exact hhas
    have htext3 : r3.text (found .timeout) = m.bytes.drop 2 := by
      rw [hr3, hr2, hr1]
      exact htwo
    have hrv : r3.rvatoi ⟨12, .RVATOI, [], 8⟩ (found .timeout) = m.tag := by
      rw [Run.rvatoi, hhas3, htext3]
      exact strtol_tag m
    unfold runState
    dsimp only
    rw [hrv, hr4]
  have hstatus0 : r.status = ⟨2, .IF, [51, 48], 10⟩ :: asyncrecvProgram.drop 2 := hstatus
  have hstatus1 : r1.status = ⟨10, .COPY, [], 0⟩ :: asyncrecvProgram.drop 4 := hr1 ▸ rfl
  have hstatus2 : r2.status = ⟨11, .SKIP, [], 2⟩ :: asyncrecvProgram.drop 5 := hr2 ▸ rfl
  have hstatus3 : r3.status = ⟨12, .RVATOI, [], 8⟩ :: asyncrecvProgram.drop 6 := hr3 ▸ rfl
  have hstatus4 : r4.status = ⟨13, .EXITRV, [], 0⟩ :: asyncrecvProgram.drop 7 := hr4 ▸ rfl
  have hended1 : r1.ended = none := hr1 ▸ hended
  have hended2 : r2.ended = none := hr2 ▸ hended1
  have hended3 : r3.ended = none := hr3 ▸ hended2
  have hended4 : r4.ended = none := hr4 ▸ hended3
  refine ⟨{ r4 with ended := some (.ret r4.rv) }, ?_, ?_, ?_, ?_⟩
  · rw [utmTurns_other _ _ _ hstatus0 (by decide) hended, hif, utmTurns_other _ _ _ hstatus1 (by decide) hended1, hcopy,
      utmTurns_other _ _ _ hstatus2 (by decide) hended2, hskip, utmTurns_other _ _ _ hstatus3 (by decide) hended3,
      hrvatoi, utmTurns_other _ _ _ hstatus4 (by decide) hended4]
    rfl
  · rw [hr4]
  · rw [hr4, hr3, hr2]
  · rw [hr4, hr3, hr2, hr1]

lemma asyncrecvRc_copies (m : Message) (hlen : m.bytes.length + BUFSIZE < 2 ^ 31) : Copies asyncrecvRc m := by
  intro pbuf reads hpos hreads hm
  have hroom := hm.length_le
  have hstart : CursorInv (runStart asyncrecvProgram pbuf []) := cursorInv_start asyncrecvProgram pbuf []
  have hbytes : (m.head ++ m.text).length + 1 = m.bytes.length := by
    rw [Message.bytes, ← concat_eq_append, length_concat]
  obtain ⟨r, hturns, hinv, hline, hinbuf, hkept, hreading⟩ :=
    readLine asyncrecvProgram.tail ((pending pbuf reads).length + 8 - m.bytes.length) rfl rfl asyncrecvProgram
      hstart rfl rfl hpos hreads (fun c hc => (m.bytes_plain c hc).2) hm (by change 0 + _ + BUFSIZE < _; omega)
  obtain ⟨r', htail, hended, hout, hinbuf'⟩ :=
    asyncrecvRc_tail m ((pending pbuf reads).length + 2 - m.bytes.length)
      (readchars m.bytes.length pbuf reads).2 hinv hreading hkept hline
  have hfirst : (pending pbuf reads).length + 8 - m.bytes.length + ((m.head ++ m.text).length + 1) =
      (pending pbuf reads).length + 8 := by omega
  have hsecond : (pending pbuf reads).length + 8 - m.bytes.length =
      (pending pbuf reads).length + 2 - m.bytes.length + 6 := by omega
  rw [hfirst, hsecond] at hturns
  rw [hbytes] at hturns hinbuf
  have hall := hturns.trans htail
  unfold asyncrecvRc
  rw [hall]
  dsimp only
  rw [hended, hout, hinbuf', hinbuf]
  rfl

/-! ## Batches -/

/-- Of the messages that arrive in any number of reads of any sizes, each with a receive machine that copies it, every
one gets the call for its event with the text behind the event, as long as each message with a callback begins where a
read begins. -/
theorem asyncrecv_right_iff (recv : Receive) (atab : List Asynctab) (ms : List Message) (reads : List (List UInt8))
    (pbuf : UtmBuf) (hdone : pbuf.len ≤ pbuf.pos) (hpos : 0 ≤ pbuf.pos) (hreads : ∀ data ∈ reads, data ≠ [])
    (hms : reads.flatten = ms.flatMap Message.bytes) (hcopies : ∀ m ∈ ms, Copies recv m) :
    (asyncrecv recv atab ms.length (asyncStart pbuf reads)).calls = ms.filterMap (rightCall atab) ↔
    BeginReads atab reads 0 ms := by
  refine asyncrecv_iff atab ms hreads hcopies ?_ (turnInv_start reads hdone hpos)
  rwa [drop_zero]

def letter : Message := ⟨10, [97, 32, 98], by decide, by simp⟩

def letters : List Message := [letter, letter]

def letterTable : List Asynctab := [⟨[97], 1⟩]

lemma letters_ne : ∀ data ∈ [letters.flatMap Message.bytes], data ≠ [] := by decide

lemma letters_copies : ∀ m ∈ letters, Copies asyncrecvRc m := by
  intro m hm
  have hletter : m = letter := by
    cases mem_cons.mp hm with
    | inl h => exact h
    | inr h => exact mem_singleton.mp h
  rw [hletter]
  exact asyncrecvRc_copies letter (by decide)

/-- Two messages in three reads. -/
def letterReads : List (List UInt8) := [letter.bytes.take 4, letter.bytes.drop 4, letter.bytes]

theorem asyncrecv_right_iff_letters :
    (asyncrecv asyncrecvRc letterTable letters.length (asyncStart emptyBuf letterReads)).calls =
    letters.filterMap (rightCall letterTable) :=
  (asyncrecv_right_iff asyncrecvRc letterTable letters letterReads emptyBuf (by decide) (by decide) (by decide)
    (by decide) letters_copies).mpr ⟨fun _ => ⟨0, rfl⟩, fun _ => ⟨2, rfl⟩, trivial⟩

/-- The second message of a read gets a place that is too high by the length of the first one. -/
theorem second_message_shifted :
    (asyncrecv asyncrecvRc letterTable letters.length (asyncStart emptyBuf [letters.flatMap Message.bytes])).calls ≠
      letters.filterMap (rightCall letterTable) := by
  intro h
  have hstart : TurnInv [letters.flatMap Message.bytes] 0 (asyncStart emptyBuf [letters.flatMap Message.bytes]) :=
    turnInv_start _ (by decide) (by decide)
  obtain ⟨-, hat, -⟩ := (asyncrecv_iff letterTable letters letters_ne letters_copies (by decide) hstart).mp h
  obtain ⟨k, hk⟩ := hat (by decide)
  cases k with
  | zero => exact absurd hk (by decide)
  | succ k => exact absurd hk (by simp [letters, letter, Message.bytes, Message.head])

end Vde.Mgmt
