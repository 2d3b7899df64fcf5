import Mathlib.Data.List.Find
import Vde.ComList

/-!
# The commands of the switch and of its plugins

In every run of loads and unloads the list has the commands of the switch and then those of the loaded plugins, in the
order in which they were loaded. `delcl` would leave `clt` behind in a list that becomes empty; the commands of the
switch keep that from happening.
-/

namespace Vde

open List

open Cmd (bytes)

/-! ## Tables -/

section Tables

variable {s : TailList ComList} {l as : List Nat}

lemma addcl_spec (hs : s.Holds l) (hlive : ∀ a ∈ as, a ∈ s.heap.allocated) (h0 : ∀ a ∈ as, a ≠ 0)
    (hnodup : (l ++ as).Nodup) : ∃ s', addcl as s = some s' ∧ s'.Holds (l ++ as) ∧ s.Kept s' := by
  induction as generalizing s l with
  | nil => exact ⟨s, rfl, (append_nil l).symm ▸ hs, rfl, rfl⟩
  | cons a as ih =>
    have hsplit : l ++ a :: as = (l ++ [a]) ++ as := append_cons l a as
    rw [hsplit] at hnodup ⊢
    have hnew : a ∉ l := fun ha =>
      (nodup_append.mp (nodup_append.mp hnodup).1).2.2 a ha a mem_cons_self rfl
    obtain ⟨s₁, hs₁, hholds, hkept⟩ := hs.append (hlive a mem_cons_self) (h0 a mem_cons_self) hnew
    obtain ⟨s', hs', hholds', hkept'⟩ := ih hholds
      (fun b hb => hkept.allocated ▸ hlive b (mem_cons_of_mem a hb))
      (fun b hb => h0 b (mem_cons_of_mem a hb)) hnodup
    refine ⟨s', ?_, hholds', hkept.trans hkept'⟩
    rw [addcl, foldlM_cons, hs₁]
    exact hs'

lemma delcl_spec (hs : s.Holds l) (hrest : l.filter (fun b => decide (b ∉ as)) ≠ []) :
    ∃ s', delcl as s = some s' ∧ s'.Holds (l.filter fun b => decide (b ∉ as)) ∧ s.Kept s' := by
  induction as generalizing s l with
  | nil =>
    have hall : l.filter (fun b => decide (b ∉ [])) = l :=
      filter_eq_self.mpr fun b _ => decide_eq_true not_mem_nil
    exact ⟨s, rfl, hall.symm ▸ hs, rfl, rfl⟩
  | cons a as ih =>
    have hfilter : l.filter (fun b => decide (b ∉ a :: as)) =
        (l.filter (· != a)).filter fun b => decide (b ∉ as) := by
      rw [filter_filter]
      apply filter_congr
      intro b _
      rw [Bool.eq_iff_iff, Bool.and_eq_true, decide_eq_true_iff, decide_eq_true_iff, bne_iff_ne, mem_cons, not_or,
        and_comm]
    rw [hfilter] at hrest ⊢
    obtain ⟨s₁, hs₁, hholds, hkept⟩ := @TailList.Holds.remove _ s l a hs fun hnil =>
      hrest (by rw [hnil, filter_nil])
    obtain ⟨s', hs', hholds', hkept'⟩ := ih hholds hrest
    refine ⟨s', ?_, hholds', hkept.trans hkept'⟩
    rw [delcl, foldlM_cons, hs₁]
    exact hs'

lemma filter_middle {u w : List Nat} (h : (u ++ as ++ w).Nodup) :
    (u ++ as ++ w).filter (fun b => decide (b ∉ as)) = u ++ w := by
  rw [nodup_append, nodup_append] at h
  obtain ⟨⟨-, -, hu⟩, -, hw⟩ := h
  have hleft : u.filter (fun b => decide (b ∉ as)) = u :=
    filter_eq_self.mpr fun b hb => decide_eq_true fun ha => hu b hb b ha rfl
  have hgone : as.filter (fun b => decide (b ∉ as)) = [] :=
    filter_eq_nil_iff.mpr fun b hb hno => of_decide_eq_true hno hb
  have hright : w.filter (fun b => decide (b ∉ as)) = w :=
    filter_eq_self.mpr fun b hb => decide_eq_true fun ha => hw b (mem_append_right _ ha) b hb rfl
  rw [filter_append, filter_append, hleft, hgone, hright, append_nil]

end Tables

/-! ## The switch -/

/-- The tables of the modules, as the linker has placed them. -/
structure MainTables (memory : LinkedHeap ComList) (cl : List Nat) : Prop where
  some : cl ≠ []
  nodup : cl.Nodup
  nonzero : ∀ a ∈ cl, a ≠ 0
  mapped : ∀ a ∈ cl, a ∈ memory.allocated

/-- The list of a switch in which some libraries are loaded. -/
structure Registered (memory : LinkedHeap ComList) (cl : List Nat) (libs : List Library) (s : TailList ComList) :
    Prop where
  holds : s.Holds (cl ++ libs.flatMap Library.entries)
  main : cl.map s.heap.val = cl.map memory.val
  commands : ∀ lib ∈ libs, lib.entries.map s.heap.val = lib.commands

def ComRun.Right (memory : LinkedHeap ComList) (cl : List Nat) (s : ComRun) : Prop :=
  ∃ clh, s.clh = some clh ∧ Registered memory cl s.libs clh

variable {memory : LinkedHeap ComList} {cl : List Nat} {libs : List Library} {s : TailList ComList} {lib : Library}

lemma pluginStart_right (h : MainTables memory cl) : (pluginStart memory cl).Right memory cl := by
  have hempty : (⟨{ memory with head := 0 }, none⟩ : TailList ComList).Holds [] :=
    ⟨⟨rfl, nodup_nil, fun _ ha => absurd ha not_mem_nil⟩, rfl⟩
  obtain ⟨clh, hclh, hholds, hkept⟩ := addcl_spec hempty h.mapped h.nonzero h.nodup
  exact ⟨clh, hclh, (append_nil cl).symm ▸ hholds, congrArg cl.map hkept.val,
    fun _ hlib => absurd hlib not_mem_nil⟩

lemma dlopen_spec (h : Registered memory cl libs s) (h0 : lib.cl ≠ 0)
    (hfresh : ∀ a ∈ lib.entries, a ∉ cl ++ libs.flatMap Library.entries) :
    ∃ s', dlopen lib s = some s' ∧ Registered memory cl (libs ++ [lib]) s' := by
  have hmapped : TailList.Holds ⟨s.heap.map lib.cl lib.commands, s.tail⟩ (cl ++ libs.flatMap Library.entries) :=
    ⟨h.holds.linked.map fun b hb hin => hfresh b hin hb, h.holds.tail⟩
  have hnodup : (cl ++ libs.flatMap Library.entries ++ lib.entries).Nodup := nodup_append.mpr
    ⟨h.holds.linked.nodup, nodup_range', fun b hb a ha heq => hfresh a ha (heq ▸ hb)⟩
  have hlive : ∀ a ∈ lib.entries, a ∈ (s.heap.map lib.cl lib.commands).allocated :=
    fun a ha => mem_append_left _ ha
  have hnonzero : ∀ a ∈ lib.entries, a ≠ 0 := by
    intro a ha
    have hle := (mem_range'_1.mp ha).1
    omega
  have hold {as : List Nat} (hin : ∀ a ∈ as, a ∈ cl ++ libs.flatMap Library.entries) :
      as.map (s.heap.map lib.cl lib.commands).val = as.map s.heap.val :=
    map_congr_left fun a ha =>
      congrArg HeapCell.val (LinkedHeap.map_cells_of_notMem fun hnew => hfresh a hnew (hin a ha))
  obtain ⟨s', hs', hholds, hkept⟩ := addcl_spec hmapped hlive hnonzero hnodup
  refine ⟨s', hs', ?_, ?_, ?_⟩
  · rw [flatMap_append, flatMap_singleton, ← append_assoc]
    exact hholds
  · rw [hkept.val, hold fun a ha => mem_append_left _ ha, h.main]
  intro lib' hlib'
  rw [hkept.val]
  rcases mem_append.mp hlib' with hother | hself
  · rw [hold fun a ha => mem_append_right _ (mem_flatMap.mpr ⟨lib', hother, ha⟩), h.commands lib' hother]
  rw [mem_singleton.mp hself]
  exact LinkedHeap.map_val_range ..

lemma dlclose_spec {pre post : List Library} (hcl : cl ≠ []) (h : Registered memory cl (pre ++ lib :: post) s) :
    ∃ s', dlclose lib s = some s' ∧ Registered memory cl (pre ++ post) s' := by
  have hentries : cl ++ (pre ++ lib :: post).flatMap Library.entries =
      cl ++ pre.flatMap Library.entries ++ lib.entries ++ post.flatMap Library.entries := by
    rw [flatMap_append, flatMap_cons, append_assoc, append_assoc]
  have hholds := h.holds
  rw [hentries] at hholds
  have hleft := filter_middle hholds.linked.nodup
  have hsome : (cl ++ pre.flatMap Library.entries ++ lib.entries ++ post.flatMap Library.entries).filter
      (fun b => decide (b ∉ lib.entries)) ≠ [] := by
    rw [hleft, append_assoc]
    exact append_ne_nil_of_left_ne_nil hcl _
  obtain ⟨s', hs', hholds', hkept⟩ := delcl_spec hholds hsome
  rw [hleft] at hholds'
  have hout : ∀ b ∈ cl ++ pre.flatMap Library.entries ++ post.flatMap Library.entries, b ∉ lib.entries := by
    rw [← hleft]
    exact fun b hb => of_decide_eq_true (mem_filter.mp hb).2
  refine ⟨⟨s'.heap.unmap lib.entries, s'.tail⟩, congrArg (Option.map _) hs', ?_, ?_, fun lib' hin => ?_⟩
  · rw [flatMap_append, ← append_assoc]
    exact ⟨hholds'.linked.unmap hout, hholds'.tail⟩
  · exact (congrArg cl.map hkept.val).trans h.main
  have hin' := (Sublist.append_left (sublist_cons_self lib post) pre).subset hin
  exact (congrArg lib'.entries.map hkept.val).trans (h.commands lib' hin')

lemma pluginStep_right (hcl : cl ≠ []) {r : ComRun} {e : PluginEvent} (h : r.Right memory cl)
    (he : pluginEnabled cl r e) : (pluginStep r e).Right memory cl := by
  obtain ⟨clh, hclh, hreg⟩ := h
  cases e with
  | add lib =>
    obtain ⟨s', hs', hreg'⟩ := dlopen_spec hreg he.1 he.2
    exact ⟨s', by rw [pluginStep, hclh]; exact hs', hreg'⟩
  | del k =>
    have hk : k < r.libs.length := he
    have hsplit : r.libs = r.libs.take k ++ r.libs[k] :: r.libs.drop (k + 1) := by
      rw [getElem_cons_drop, take_append_drop]
    rw [hsplit] at hreg
    obtain ⟨s', hs', hreg'⟩ := dlclose_spec hcl hreg
    rw [← eraseIdx_eq_take_drop_succ] at hreg'
    exact ⟨s', by rw [pluginStep, hclh, getElem?_eq_getElem hk]; exact hs', hreg'⟩

/-- What a line should do when the list has these commands. -/
def handleLine (returns : CmdCall → Int) (fd : Int) (line : List UInt8) (commands : List ComList) : CmdHandled :=
  let inbuf := line.dropWhile isBlank
  if inbuf = [] ∨ inbuf.head? = some 35 then ⟨none, [], ENOSYS⟩
  else handleFound returns fd inbuf (commands.find? (ComList.takes inbuf))

lemma Registered.contents (h : Registered memory cl libs s) :
    (cl ++ libs.flatMap Library.entries).map s.heap.val = cl.map memory.val ++ libs.flatMap Library.commands := by
  rw [map_append, h.main, map_flatMap]
  congr 1
  exact flatMap_congr h.commands

lemma handleCmd_eq (h : Registered memory cl libs s) (returns : CmdCall → Int) (fd : Int) (line : List UInt8) :
    handleCmd returns fd line s =
    some (handleLine returns fd line (cl.map memory.val ++ libs.flatMap Library.commands)) := by
  rw [handleCmd, handleLine, ← h.contents]
  by_cases hblank : line.dropWhile isBlank = [] ∨ (line.dropWhile isBlank).head? = some 35
  · rw [if_pos hblank, if_pos hblank]
  have hstop : (fun a => (s.heap.val a).takes (line.dropWhile isBlank)) =
      ComList.takes (line.dropWhile isBlank) ∘ s.heap.val := rfl
  rw [if_neg hblank, if_neg hblank, h.holds.linked.search_eq, Option.map_some, find?_map, hstop]
  cases hfind : (cl ++ libs.flatMap Library.entries).find? (ComList.takes (line.dropWhile isBlank) ∘ s.heap.val) with
  | none => rfl
  | some a =>
    have hnonzero : a ≠ 0 := h.holds.linked.ne_zero (mem_of_find?_eq_some hfind)
    rw [Option.getD_some, if_neg hnonzero, Option.map_some]

/-- In every run of loads and unloads of plugins no pointer leaves the mapped memory, and a line is for the first
command that takes it, of those of the switch and then of those of the plugins in the order in which they were
loaded. -/
theorem commands_registered (h : MainTables memory cl) (es : List PluginEvent)
    (hes : (pluginMachine cl).Along (pluginMachine cl).enabled (pluginStart memory cl) es) :
    let r := (pluginMachine cl).run (pluginStart memory cl) es
    ∃ clh, r.clh = some clh ∧ clh.heap.contents = cl.map memory.val ++ r.libs.flatMap Library.commands ∧
      ∀ returns fd line, handleCmd returns fd line clh =
        some (handleLine returns fd line (cl.map memory.val ++ r.libs.flatMap Library.commands)) := by
  have hright : (pluginMachine cl).Always (ComRun.Right memory cl) (pluginStart memory cl) es :=
    Machine.Along.always (ComRun.Right memory cl) (fun _ hr => hr) (fun _ _ hr he => pluginStep_right h.some hr he)
      (pluginStart_right h) hes
  obtain ⟨clh, hclh, hreg⟩ := hright.last
  exact ⟨clh, hclh, hreg.holds.linked.contents_eq.trans hreg.contents, handleCmd_eq hreg⟩

def helpMemory : LinkedHeap ComList := ⟨fun _ => ⟨⟨bytes ['h', 'e', 'l', 'p'], some 1, 0x42⟩, 0⟩, [1], 0⟩

def dumpLibrary : Library :=
  ⟨20, [⟨bytes ['d', 'u', 'm', 'p'], none, 0⟩, ⟨bytes ['d', 'u', 'm', 'p', '/', 'o', 'n'], some 3, 2⟩]⟩

theorem commands_registered_again :
    let r := (pluginMachine [1]).run (pluginStart helpMemory [1]) [.add dumpLibrary, .del 0, .add dumpLibrary]
    ∃ clh, r.clh = some clh ∧ clh.heap.contents = [1].map helpMemory.val ++ r.libs.flatMap Library.commands ∧
      ∀ returns fd line, handleCmd returns fd line clh =
        some (handleLine returns fd line ([1].map helpMemory.val ++ r.libs.flatMap Library.commands)) := by
  have hmain : MainTables helpMemory [1] := ⟨by decide, by decide, by decide, by decide⟩
  exact commands_registered hmain _ ⟨⟨by decide, by decide⟩, Nat.one_pos, ⟨by decide, by decide⟩, trivial⟩

end Vde
