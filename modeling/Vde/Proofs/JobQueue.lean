import Mathlib.Data.List.Pairwise
import Vde.Autolink

/-!
# The job queue of vde_autolink

A call of `insert_job` is right when the link has no job in the queue and a job behind which the new one does not belong
is there. Otherwise the record of the old job is read after it is freed, or the new job is not linked.
-/

namespace Vde.Alink

open List

variable {s : JobHeap} {l pre m : List Nat} {j pj nj al gap turns : Nat} {now : Int} {f : Task}

/-! ### Removing -/

lemma removeLoop_absent (hchain : NextChain s.next j m) (hlive : ∀ a ∈ m, a ∈ s.allocated)
    (habsent : ∀ a ∈ m, (s.val a).al ≠ al) (hturns : m.length < turns) : removeLoop al turns j pj s = some s := by
  induction m generalizing j pj turns with
  | nil =>
    cases turns with
    | zero => exact absurd hturns (Nat.not_lt_zero _)
    | succ turns =>
      have hend : j = 0 := hchain
      rw [removeLoop, if_pos hend]
  | cons a m ih =>
    cases turns with
    | zero => exact absurd hturns (Nat.not_lt_zero _)
    | succ turns =>
      obtain ⟨rfl, hj, hrest⟩ := hchain
      have hother : ¬(s.cells j).val.al = al := habsent j mem_cons_self
      rw [removeLoop, if_neg hj]
      simp only [LinkedHeap.load_eq (hlive j mem_cons_self), bind, Option.bind, if_neg hother]
      exact ih hrest (fun a ha => hlive a (mem_cons_of_mem _ ha))
        (fun a ha => habsent a (mem_cons_of_mem _ ha)) (Nat.lt_of_succ_lt_succ hturns)

lemma removeLoop_present (hchain : NextChain s.next j m) (hpresent : ∃ a ∈ m, (s.val a).al = al) :
    removeLoop al turns j pj s = none := by
  induction m generalizing j pj turns with
  | nil =>
    obtain ⟨a, ha, -⟩ := hpresent
    exact absurd ha not_mem_nil
  | cons a m ih =>
    cases turns with
    | zero => rfl
    | succ turns =>
      obtain ⟨rfl, hj, hrest⟩ := hchain
      rw [removeLoop, if_neg hj]
      by_cases hlive : j ∈ s.allocated
      · simp only [LinkedHeap.load_eq hlive, bind, Option.bind]
        by_cases hmine : (s.cells j).val.al = al
        · rw [if_pos hmine]
          cases hunlinked : if s.head = j then some { s with head := (s.cells j).next }
              else s.setNext pj (s.cells j).next with
          | none => rfl
          | some s1 =>
            dsimp only
            rw [LinkedHeap.free]
            by_cases hlive1 : j ∈ s1.allocated
            · rw [if_pos hlive1]
              dsimp only
              rw [LinkedHeap.load, if_neg (by simp)]
            · rw [if_neg hlive1]
        rw [if_neg hmine]
        have hbehind : ∃ a ∈ m, (s.val a).al = al := by
          obtain ⟨a, ha, hal⟩ := hpresent
          rcases mem_cons.mp ha with rfl | ha
          · exact absurd hal hmine
          · exact ⟨a, ha, hal⟩
        exact ih hrest hbehind
      · simp only [LinkedHeap.load, if_neg hlive, bind, Option.bind]

/-! ### Placing -/

lemma placeLoop_end (h : s.Linked l) (hearly : ∀ a ∈ l, (s.val a).time ≤ (s.val nj).time) : placeLoop nj s = some s := by
  have hno : ∀ a ∈ l, decide ((s.val a).time > (s.val nj).time) = false := fun a ha =>
    decide_eq_false (Int.not_lt.mpr (hearly a ha))
  obtain ⟨q, hseek⟩ := @LinkedHeap.seek_none _ s l s.head _ _ s.head h.chain h.live hno h.turns_lt
  rw [placeLoop, hseek]
  rfl

lemma placeLoop_found {a : Nat} (h : s.Linked (pre ++ a :: m)) (hnj : nj ∈ s.allocated)
    (hearly : ∀ b ∈ pre, (s.val b).time ≤ (s.val nj).time) (hlate : (s.val nj).time < (s.val a).time) :
    placeLoop nj s = some ((s.relink pre nj).put nj ⟨s.val nj, a⟩) := by
  have hno : ∀ b ∈ pre, decide ((s.val b).time > (s.val nj).time) = false := fun b hb =>
    decide_eq_false (Int.not_lt.mpr (hearly b hb))
  have hturns : pre.length < s.turns := by
    have hlt := h.turns_lt
    rw [length_append] at hlt
    omega
  have hnj' : nj ∈ (s.relink pre nj).allocated := by
    rw [LinkedHeap.relink_allocated]
    exact hnj
  rw [placeLoop, @LinkedHeap.seek_found _ s m s.head a _ _ s.head pre h.chain h.live hno (decide_eq_true hlate) hturns]
  simp only [bind, Option.bind]
  rw [if_neg (h.ne_zero (mem_append_right _ mem_cons_self)), h.relink_eq s.head nj]
  dsimp only
  rw [LinkedHeap.setNext, LinkedHeap.store_eq hnj', LinkedHeap.relink_val]

/-! ### `insert_job` -/

def withJob (nj : Nat) (job : Job) (s : JobHeap) : JobHeap := (s.malloc nj).put nj ⟨job, 0⟩

section

variable {job : Job}

lemma withJob_val : (withJob nj job s).val nj = job := by rw [LinkedHeap.val, withJob, LinkedHeap.put_self]

lemma withJob_val_of_ne {a : Nat} (h : a ≠ nj) : (withJob nj job s).val a = s.val a := by
  rw [LinkedHeap.val, withJob, LinkedHeap.put_of_ne h]
  rfl

lemma withJob_linked (h : s.Linked l) (hnj : nj ∉ s.allocated) :
    (withJob nj job s).Linked l ∧ ∀ a ∈ l, (withJob nj job s).val a = s.val a := by
  have hnew : nj ∉ l := fun hmem => hnj (h.live nj hmem)
  exact ⟨(h.malloc nj).put hnew _, fun a ha => withJob_val_of_ne fun heq => hnew (heq ▸ ha)⟩

end

lemma insertJob_present (h : s.Linked l) (hpresent : ∃ a ∈ l, (s.val a).al = al) : insertJob now nj f al gap s = none := by
  rw [insertJob, removeLoop_present h.chain hpresent]
  rfl

lemma insertJob_absent (h : s.Linked l) (habsent : ∀ a ∈ l, (s.val a).al ≠ al) :
    insertJob now nj f al gap s =
      let s1 := withJob nj ⟨f, al, now + gap⟩ s
      if s1.head = 0 then some { s1 with head := nj } else placeLoop nj s1 := by
  have hstore : (s.malloc nj).store nj ⟨⟨f, al, now + gap⟩, 0⟩ = some (withJob nj ⟨f, al, now + gap⟩ s) :=
    LinkedHeap.store_eq mem_cons_self _
  rw [insertJob, removeLoop_absent h.chain h.live habsent h.turns_lt]
  simp only [bind, Option.bind, hstore]
  rfl

def InOrder (jobs : List Job) : Prop := jobs.Pairwise fun a b => a.time ≤ b.time

lemma placed {job : Job} {e : Nat} (h : s.Linked (pre ++ m)) (he : NextChain s.next e m) (hnj : nj ∉ s.allocated)
    (h0 : nj ≠ 0) (horder : InOrder ((pre ++ m).map s.val)) (hearly : ∀ b ∈ pre, (s.val b).time ≤ job.time)
    (hlate : ∀ a ∈ m, job.time ≤ (s.val a).time) :
    let s' := ((withJob nj job s).relink pre nj).put nj ⟨job, e⟩
    s'.Linked (pre ++ nj :: m) ∧ InOrder ((pre ++ nj :: m).map s'.val) ∧
      ((pre ++ nj :: m).map s'.val).Perm (job :: (pre ++ m).map s.val) := by
  dsimp only
  have hnew : nj ∉ pre ++ m := fun hmem => hnj (h.live nj hmem)
  have hchain : NextChain (withJob nj job s).next e m := by
    refine he.congr fun b hb => ?_
    have hne : b ≠ nj := fun heq => hnew (heq ▸ mem_append_right _ hb)
    rw [LinkedHeap.next, withJob, LinkedHeap.put_of_ne hne]
    rfl
  have hlinked := (@withJob_linked s (pre ++ m) nj job h hnj).1.insert hchain mem_cons_self h0 hnew job
  have hval {b : Nat} (hb : b ∈ pre ++ m) :
      (((withJob nj job s).relink pre nj).put nj ⟨job, e⟩).val b = s.val b := by
    have hne : b ≠ nj := fun heq => hnew (heq ▸ hb)
    rw [LinkedHeap.val, LinkedHeap.put_of_ne hne]
    change ((withJob nj job s).relink pre nj).val b = s.val b
    rw [LinkedHeap.relink_val, withJob_val_of_ne hne]
  have hmap : (pre ++ nj :: m).map (((withJob nj job s).relink pre nj).put nj ⟨job, e⟩).val =
      pre.map s.val ++ job :: m.map s.val := by
    rw [map_append, map_cons, map_congr_left fun b hb => hval (mem_append_left m hb),
      map_congr_left fun b hb => hval (mem_append_right pre hb), LinkedHeap.val, LinkedHeap.put_self]
  rw [hmap, map_append]
  refine ⟨hlinked, ?_, perm_middle⟩
  rw [map_append, InOrder, pairwise_append] at horder
  rw [InOrder, pairwise_append, pairwise_cons]
  refine ⟨horder.1, ⟨fun x hx => ?_, horder.2.1⟩, fun x hx y hy => ?_⟩
  · obtain ⟨a, ha, rfl⟩ := mem_map.mp hx
    exact hlate a ha
  rcases mem_cons.mp hy with rfl | hy
  · obtain ⟨b, hb, rfl⟩ := mem_map.mp hx
    exact hearly b hb
  · exact horder.2.2 x hx y hy

lemma insertJob_placed (h : s.Linked l) (hnj : nj ∉ s.allocated) (h0 : nj ≠ 0) (horder : InOrder (l.map s.val))
    (habsent : ∀ a ∈ l, (s.val a).al ≠ al) (hplace : l = [] ∨ ∃ a ∈ l, now + gap < (s.val a).time) : ∃ s' l',
    insertJob now nj f al gap s = some s' ∧ s'.Linked l' ∧ l'.Perm (nj :: l) ∧ s'.allocated = nj :: s.allocated ∧
    InOrder (l'.map s'.val) ∧ (l'.map s'.val).Perm (⟨f, al, now + gap⟩ :: l.map s.val) := by
  rw [insertJob_absent h habsent]
  dsimp only
  rcases hplace with rfl | hplace
  · have hempty : (withJob nj ⟨f, al, now + gap⟩ s).head = 0 := h.chain
    obtain ⟨hlinked, hin, hperm⟩ := @placed s [] [] nj ⟨f, al, now + gap⟩ 0 h rfl hnj h0 horder
      (fun b hb => absurd hb not_mem_nil) (fun b hb => absurd hb not_mem_nil)
    refine ⟨_, [nj], ?_, hlinked, Perm.refl _, rfl, hin, hperm⟩
    rw [if_pos hempty, LinkedHeap.put, LinkedHeap.relink, getLast?_nil, withJob, LinkedHeap.put]
    dsimp only
    rw [Function.update_idem]
  obtain ⟨k, a, m, rfl, hearly, hlate⟩ :
      ∃ k a m, l = k ++ a :: m ∧ (∀ b ∈ k, (s.val b).time ≤ now + gap) ∧ now + gap < (s.val a).time := by
    obtain ⟨c, hc, hct⟩ := hplace
    cases hfind : l.find? fun a => decide (now + gap < (s.val a).time) with
    | none => exact absurd (decide_eq_true hct) (find?_eq_none.mp hfind c hc)
    | some a =>
      obtain ⟨ha, k, m, rfl, hk⟩ := find?_eq_some_iff_append.mp hfind
      refine ⟨k, a, m, rfl, fun b hb => ?_, of_decide_eq_true ha⟩
      simpa using hk b hb
  obtain ⟨ha0, hbehind⟩ := h.chain.behind
  have hsorted := horder
  rw [InOrder, map_append, map_cons, pairwise_append, pairwise_cons] at hsorted
  have hlater : ∀ b ∈ a :: m, now + gap ≤ (s.val b).time := by
    intro b hb
    rcases mem_cons.mp hb with rfl | hb
    · exact Int.le_of_lt hlate
    · exact Int.le_trans (Int.le_of_lt hlate) (hsorted.2.1.1 _ (mem_map_of_mem hb))
  obtain ⟨hlinked, hin, hperm⟩ := @placed s k (a :: m) nj ⟨f, al, now + gap⟩ a h ⟨rfl, ha0, hbehind⟩ hnj h0 horder
    hearly hlater
  refine ⟨_, _, ?_, hlinked, perm_middle, LinkedHeap.relink_allocated _ _ _, hin, hperm⟩
  obtain ⟨hold, hvals⟩ := @withJob_linked s (k ++ a :: m) nj ⟨f, al, now + gap⟩ h hnj
  have hhead : (withJob nj ⟨f, al, now + gap⟩ s).head ≠ 0 := by
    have hchain := h.chain
    cases k with
    | nil => exact hchain.1 ▸ hchain.2.1
    | cons b k => exact hchain.1 ▸ hchain.2.1
  rw [if_neg hhead, placeLoop_found hold mem_cons_self, withJob_val]
  · intro b hb
    rw [hvals b (mem_append_left _ hb), withJob_val]
    exact hearly b hb
  rw [hvals a (mem_append_right _ mem_cons_self), withJob_val]
  exact hlate

lemma insertJob_lost (h : s.Linked l) (hnj : nj ∉ s.allocated) (habsent : ∀ a ∈ l, (s.val a).al ≠ al) (hne : l ≠ [])
    (hearly : ∀ a ∈ l, (s.val a).time ≤ now + gap) :
    insertJob now nj f al gap s = some (withJob nj ⟨f, al, now + gap⟩ s) := by
  obtain ⟨hlinked, hvals⟩ := @withJob_linked s l nj ⟨f, al, now + gap⟩ h hnj
  rw [insertJob_absent h habsent]
  dsimp only
  have hhead : (withJob nj ⟨f, al, now + gap⟩ s).head ≠ 0 := by
    cases l with
    | nil => exact absurd rfl hne
    | cons a m => exact h.chain.1 ▸ h.chain.2.1
  rw [if_neg hhead]
  refine placeLoop_end hlinked fun a ha => ?_
  rw [hvals a ha, withJob_val]
  exact hearly a ha

/-! ### Runs -/

def Sound (s : JobRun) : Prop := s.fault = false ∧ (∃ l, s.heap.Linked l) ∧ InOrder s.heap.contents

def JobEvent.Right (s : JobRun) (e : JobEvent) : Prop :=
  Sound (jobStep s e) ∧ match e with
    | .insertJob now _ f al gap =>
      (jobStep s e).heap.contents.Perm (⟨f, al, now + gap⟩ :: s.heap.contents.filter fun job => job.al != al)
    | _ => True

/-- No job for the link is in the queue, and the new one does not come behind all others. -/
def JobEvent.Placed (s : JobRun) : JobEvent → Prop
  | .insertJob now _ _ al gap =>
    (∀ job ∈ s.heap.contents, job.al ≠ al) ∧
      (s.heap.contents = [] ∨ ∃ job ∈ s.heap.contents, now + gap < job.time)
  | _ => True

def JobInv (s : JobRun) : Prop :=
  s.fault = false ∧ ∃ l, s.heap.Linked l ∧ InOrder (l.map s.heap.val) ∧ ∀ j ∈ s.extracted, j ∈ s.heap.allocated ∧ j ∉ l

lemma JobInv.sound {s : JobRun} (h : JobInv s) : Sound s := by
  obtain ⟨hfault, l, hlinked, horder, -⟩ := h
  refine ⟨hfault, ⟨l, hlinked⟩, ?_⟩
  rw [hlinked.contents_eq]
  exact horder

lemma placed_iff {s : JobRun} (h : s.heap.Linked l) : JobEvent.Placed s (.insertJob now nj f al gap) ↔
    (∀ a ∈ l, (s.heap.val a).al ≠ al) ∧ (l = [] ∨ ∃ a ∈ l, now + gap < (s.heap.val a).time) := by
  rw [JobEvent.Placed, h.contents_eq, forall_mem_map, map_eq_nil_iff]
  simp only [mem_map, exists_exists_and_eq_and]

lemma step_placed {s : JobRun} (hs : JobInv s) {e : JobEvent} (he : e.Legal s) (hplaced : e.Placed s) :
    JobInv (jobStep s e) ∧ e.Right s := by
  obtain ⟨hfault, l, hlinked, horder, hextracted⟩ := hs
  cases e with
  | insertJob now nj f al gap =>
    obtain ⟨-, h0, hnj⟩ := he
    obtain ⟨habsent, hplace⟩ := (placed_iff hlinked).mp hplaced
    obtain ⟨s', l', hinsert, hlinked', hperm, hall, horder', hjobs⟩ :=
      @insertJob_placed _ l nj al gap now f hlinked hnj h0 horder habsent hplace
    have hstep : jobStep s (.insertJob now nj f al gap) = { s with heap := s', clock := now } := by
      rw [jobStep, hinsert]
    have hinv : JobInv { s with heap := s', clock := now } := by
      refine ⟨hfault, l', hlinked', horder', fun j hj => ?_⟩
      obtain ⟨hlive, hout⟩ := hextracted j hj
      refine ⟨?_, fun hmem => ?_⟩
      · change j ∈ s'.allocated
        rw [hall]
        exact mem_cons_of_mem _ hlive
      rcases mem_cons.mp (hperm.mem_iff.mp hmem) with rfl | hmem
      · exact hnj hlive
      · exact hout hmem
    have hothers : (s.heap.contents.filter fun job => job.al != al) = l.map s.heap.val := by
      rw [hlinked.contents_eq, filter_eq_self, forall_mem_map]
      exact fun a ha => bne_iff_ne.mpr (habsent a ha)
    rw [JobEvent.Right, hstep]
    refine ⟨hinv, hinv.sound, ?_⟩
    dsimp only
    rw [hothers, hlinked'.contents_eq]
    exact hjobs
  | extractJob =>
    obtain ⟨l', rfl, hrest⟩ := hlinked.chain.pop he
    have hlive : s.heap.head ∈ s.heap.allocated := hlinked.live _ mem_cons_self
    have hstep : jobStep s .extractJob =
        { s with heap := { s.heap with head := s.heap.next s.heap.head }, extracted := s.heap.head :: s.extracted } := by
      rw [jobStep, extractJob, LinkedHeap.load_eq hlive]
      rfl
    have hinv : JobInv (jobStep s .extractJob) := by
      rw [hstep]
      rw [map_cons, InOrder, pairwise_cons] at horder
      refine ⟨hfault, l', ⟨hrest, hlinked.nodup.of_cons, fun a ha => hlinked.live a (mem_cons_of_mem _ ha)⟩,
        horder.2, fun j hj => ?_⟩
      rcases mem_cons.mp hj with rfl | hj
      · exact ⟨hlive, (nodup_cons.mp hlinked.nodup).1⟩
      · exact ⟨(hextracted j hj).1, fun hmem => (hextracted j hj).2 (mem_cons_of_mem _ hmem)⟩
    exact ⟨hinv, hinv.sound, trivial⟩
  | free j =>
    obtain ⟨hlive, hout⟩ := hextracted j he
    have hstep : jobStep s (.free j) = { s with
        heap := { s.heap with allocated := s.heap.allocated.filter fun a => a != j }
        extracted := s.extracted.filter fun a => a != j } := by
      rw [jobStep, LinkedHeap.free, if_pos hlive]
    have hinv : JobInv (jobStep s (.free j)) := by
      rw [hstep]
      refine ⟨hfault, l, hlinked.free hout, horder, fun a ha => ?_⟩
      obtain ⟨ha, hne⟩ := mem_filter.mp ha
      exact ⟨mem_filter.mpr ⟨(hextracted a ha).1, hne⟩, (hextracted a ha).2⟩
    exact ⟨hinv, hinv.sound, trivial⟩

lemma step_lost {s : JobRun} (hs : JobInv s) {e : JobEvent} (he : e.Legal s) (hlost : ¬e.Placed s) : ¬e.Right s := by
  obtain ⟨hfault, l, hlinked, horder, -⟩ := hs
  cases e with
  | insertJob now nj f al gap =>
    obtain ⟨-, -, hnj⟩ := he
    rintro ⟨hsound, hjobs⟩
    by_cases hpresent : ∃ a ∈ l, (s.heap.val a).al = al
    · have hbad : (jobStep s (.insertJob now nj f al gap)).fault = true := by
        rw [jobStep, insertJob_present hlinked hpresent]
      rw [hsound.1] at hbad
      cases hbad
    have habsent : ∀ a ∈ l, (s.heap.val a).al ≠ al := fun a ha hal => hpresent ⟨a, ha, hal⟩
    have hnone := not_or.mp fun hplace => hlost ((placed_iff hlinked).mpr ⟨habsent, hplace⟩)
    have hearly : ∀ a ∈ l, (s.heap.val a).time ≤ now + gap := fun a ha =>
      Int.not_lt.mp fun hlt => hnone.2 ⟨a, ha, hlt⟩
    obtain ⟨hlinked', hvals⟩ := @withJob_linked _ l nj ⟨f, al, now + gap⟩ hlinked hnj
    dsimp only at hjobs
    rw [jobStep, insertJob_lost hlinked hnj habsent hnone.1 hearly] at hjobs
    dsimp only at hjobs
    rw [hlinked'.contents_eq, hlinked.contents_eq] at hjobs
    have hall : ((l.map s.heap.val).filter fun job => job.al != al) = l.map s.heap.val := by
      rw [filter_eq_self, forall_mem_map]
      exact fun a ha => bne_iff_ne.mpr (habsent a ha)
    rw [hall] at hjobs
    have hlen := hjobs.length_eq
    rw [length_cons, length_map, length_map] at hlen
    omega
  | extractJob => exact absurd trivial hlost
  | free j => exact absurd trivial hlost

lemma jobInit_inv (clock : Int) : JobInv (jobInit clock) :=
  ⟨rfl, [], ⟨rfl, nodup_nil, fun _ h => absurd h not_mem_nil⟩, List.Pairwise.nil,
    fun _ h => absurd h not_mem_nil⟩

/-- Every call of a run is right exactly when every `insert_job` is for a link without a job, into a queue that is empty
or has a job that is due later. -/
theorem jobs_right_iff (clock : Int) (es : List JobEvent) (hes : jobMachine.Along (fun s e => e.Legal s) (jobInit clock) es) :
    jobMachine.Along (fun s e => e.Right s) (jobInit clock) es ↔
      jobMachine.Along (fun s e => e.Placed s) (jobInit clock) es :=
  Machine.along_iff JobInv (fun _ _ hs he h => step_placed hs he h) (fun _ _ hs he h => step_lost hs he h)
    (jobInit_inv clock) es hes

theorem jobs_right_iff_oneLink :
    jobMachine.Along (fun s e => e.Right s) (jobInit 0) [.insertJob 5 1 .alinkTry 7 60, .extractJob, .free 1] :=
  (jobs_right_iff 0 [.insertJob 5 1 .alinkTry 7 60, .extractJob, .free 1]
    ⟨⟨by decide, by decide, not_mem_nil⟩, Nat.one_ne_zero, mem_cons_self, trivial⟩).mpr
    ⟨⟨fun _ h => absurd h not_mem_nil, .inl rfl⟩, trivial, trivial, trivial⟩

theorem second_job_lost :
    let es := [.insertJob 5 1 .alinkCheck 7 30, .insertJob 6 2 .alinkCheck 8 30]
    jobMachine.Along (fun s e => e.Legal s) (jobInit 0) es ∧ ¬jobMachine.Along (fun s e => e.Right s) (jobInit 0) es := by
  refine ⟨⟨⟨by decide, by decide, not_mem_nil⟩, ⟨by decide, by decide, by decide⟩, trivial⟩, ?_⟩
  rintro ⟨-, ⟨-, hjobs⟩, -⟩
  exact absurd hjobs.length_eq (by decide)

end Vde.Alink
