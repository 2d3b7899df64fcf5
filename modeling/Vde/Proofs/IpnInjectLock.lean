import Vde.IpnInject
import Vde.Lib.Machine
import Mathlib.Data.List.Basic

/-!
# Who has the mutex while a message is dispatched

The flag is right about a task that finds it set only if this task has the mutex of the network. As long as
this is so, `ipn_p_handlemsg` runs with the mutex, and no other task terminates a node of the network.
-/

namespace Vde.Ipn

open List

def injectMachine : Machine InjectState InjectEvent where
  enabled s e := e.Legal s
  step := injectStep

def injectInit : InjectState := { recinject := false, ipnnMutex := fun _ => none, calls := fun _ => [] }

def DispatchLocked (s : InjectState) : Prop :=
  ∀ task, ∀ c ∈ s.calls task, c.dispatches = true → s.ipnnMutex c.net = some task

/-- A node is terminated while nobody runs `ipn_p_handlemsg` of its network. -/
def TerminateSafe (s : InjectState) : InjectEvent → Prop
  | .terminate task => ∀ net, s.top task = some ⟨net, .terminate⟩ →
      ∀ other, ∀ c ∈ s.calls other, c.dispatches = true → c.net ≠ net
  | _ => True

def TestOk (s : InjectState) : InjectEvent → Prop
  | .test task => s.recinject = true → ∀ net, s.top task = some ⟨net, .test⟩ → s.ipnnMutex net = some task
  | _ => True

def InjectCall.owns (c : InjectCall) : Prop :=
  c.phase = .locked ∨ c.phase = .outer ∨ c.phase = .cleared ∨ c.phase = .terminate

/-- A dispatch because of the flag is inside one of the same network that has the mutex. -/
def Inside : List InjectCall → Prop
  | [] => True
  | c :: rest => (c.phase = .nested → ⟨c.net, .outer⟩ ∈ rest) ∧ Inside rest

structure CallsOk (calls : List InjectCall) : Prop where
  below : ∀ c ∈ calls.tail, c.dispatches = true
  once : calls.Pairwise fun c d => c.owns → d.owns → c.net ≠ d.net
  inside : Inside calls
  alone : ∀ c ∈ calls, c.phase = .terminate → calls = [c]

structure InjectInv (s : InjectState) : Prop where
  ok : ∀ task, CallsOk (s.calls task)
  mutex : ∀ task net, s.ipnnMutex net = some task ↔ ∃ c ∈ s.calls task, c.owns ∧ c.net = net

lemma Inside.outer {calls : List InjectCall} (h : Inside calls) {c : InjectCall} (hc : c ∈ calls)
    (hnested : c.phase = .nested) : ⟨c.net, .outer⟩ ∈ calls := by
  induction calls with
  | nil => cases hc
  | cons d rest ih =>
    cases mem_cons.mp hc with
    | inl heq =>
      subst heq
      exact mem_cons_of_mem _ (h.1 hnested)
    | inr hin => exact mem_cons_of_mem _ (ih h.2 hin)

lemma InjectInv.dispatchLocked {s : InjectState} (h : InjectInv s) : DispatchLocked s := by
  intro task c hc hdisp
  apply (h.mutex task c.net).mpr
  simp only [InjectCall.dispatches, Bool.or_eq_true, decide_eq_true_eq] at hdisp
  cases hdisp with
  | inl houter => exact ⟨c, hc, .inr (.inl houter), rfl⟩
  | inr hnested => exact ⟨⟨c.net, .outer⟩, (h.ok task).inside.outer hc hnested, .inr (.inl rfl), rfl⟩

lemma InjectInv.terminateSafe {s : InjectState} (h : InjectInv s) (e : InjectEvent) : TerminateSafe s e := by
  cases e with
  | terminate task =>
    intro net htop other c hc hdisp heq
    have hmem : (⟨net, .terminate⟩ : InjectCall) ∈ s.calls task := mem_of_mem_head? htop
    have hown := (h.mutex task net).mpr ⟨_, hmem, .inr (.inr (.inr rfl)), rfl⟩
    have hlocked := h.dispatchLocked other c hc hdisp
    rw [heq, hown] at hlocked
    have hsame := Option.some.inj hlocked
    subst hsame
    rw [(h.ok task).alone _ hmem rfl, mem_singleton] at hc
    rw [hc] at hdisp
    cases hdisp
  | _ => trivial

section

variable {s : InjectState} {task net : Nat} {calls rest : List InjectCall} {c : InjectCall}

lemma calls_of_top (htop : s.top task = some c) : s.calls task = c :: (s.calls task).tail :=
  (cons_head?_tail htop).symm

lemma InjectInv.setCalls (h : InjectInv s) (hok : CallsOk calls)
    (howns : ∀ net, (∃ c ∈ calls, c.owns ∧ c.net = net) ↔ ∃ c ∈ s.calls task, c.owns ∧ c.net = net) :
    InjectInv (s.setCalls task calls) where
  ok other := by
    by_cases ho : other = task
    · subst ho
      simpa [InjectState.setCalls] using hok
    · simpa [InjectState.setCalls, ho] using h.ok other
  mutex other net := by
    have hold := h.mutex other net
    by_cases ho : other = task
    · subst ho
      rw [← howns net] at hold
      simpa [InjectState.setCalls] using hold
    · simpa [InjectState.setCalls, ho] using hold

lemma InjectInv.take (h : InjectInv s) (hfree : s.ipnnMutex net = none) (hok : CallsOk calls)
    (howns : ∀ k, (∃ c ∈ calls, c.owns ∧ c.net = k) ↔ k = net ∨ ∃ c ∈ s.calls task, c.owns ∧ c.net = k) :
    InjectInv ((s.setMutex net (some task)).setCalls task calls) where
  ok other := by
    by_cases ho : other = task
    · subst ho
      simpa [InjectState.setCalls] using hok
    · simpa [InjectState.setCalls, InjectState.setMutex, ho] using h.ok other
  mutex other k := by
    have hold := h.mutex other k
    by_cases hk : k = net
    · subst hk
      by_cases ho : other = task
      · subst ho
        have := (howns k).mpr (.inl rfl)
        simpa [InjectState.setCalls, InjectState.setMutex] using this
      rw [hfree] at hold
      have hnone : ¬∃ c ∈ s.calls other, c.owns ∧ c.net = k := fun hex => Option.some_ne_none _ (hold.mpr hex).symm
      have hne : task ≠ other := fun heq => ho heq.symm
      simpa [InjectState.setCalls, InjectState.setMutex, ho, hne] using hnone
    by_cases ho : other = task
    · subst ho
      have hiff := howns k
      rw [or_iff_right hk, ← hold] at hiff
      simpa [InjectState.setCalls, InjectState.setMutex, hk] using hiff.symm
    · simpa [InjectState.setCalls, InjectState.setMutex, hk, ho] using hold

lemma InjectInv.give (h : InjectInv s) (hcalls : s.calls task = c :: rest) (howns : c.owns) (hok : CallsOk rest) :
    InjectInv ((s.setMutex c.net none).setCalls task rest) where
  ok other := by
    by_cases ho : other = task
    · subst ho
      simpa [InjectState.setCalls] using hok
    · simpa [InjectState.setCalls, InjectState.setMutex, ho] using h.ok other
  mutex other k := by
    have hold := h.mutex other k
    have honce := (h.ok task).once
    rw [hcalls] at honce
    have hfirst := (pairwise_cons.mp honce).1
    by_cases hk : k = c.net
    · subst hk
      have hnone : ¬∃ d ∈ (if other = task then rest else s.calls other), d.owns ∧ d.net = c.net := by
        rintro ⟨d, hd, hdo, hnet⟩
        by_cases ho : other = task
        · rw [if_pos ho] at hd
          exact hfirst d hd howns hdo hnet.symm
        rw [if_neg ho] at hd
        have hother := hold.mpr ⟨d, hd, hdo, hnet⟩
        have hmine := (h.mutex task c.net).mpr ⟨c, by rw [hcalls]; exact mem_cons_self .., howns, rfl⟩
        rw [hother] at hmine
        exact ho (Option.some.inj hmine)
      by_cases ho : other = task
      · subst ho
        simpa [InjectState.setCalls, InjectState.setMutex] using hnone
      · simpa [InjectState.setCalls, InjectState.setMutex, ho] using hnone
    by_cases ho : other = task
    · subst ho
      rw [hcalls] at hold
      have hne : c.net ≠ k := fun heq => hk heq.symm
      simpa [InjectState.setCalls, InjectState.setMutex, hk, hne] using hold
    · simpa [InjectState.setCalls, InjectState.setMutex, hk, ho] using hold

lemma CallsOk.goto (h : CallsOk (c :: rest)) (phase : InjectPhase) (hne : phase ≠ .terminate)
    (howns : InjectCall.owns ⟨c.net, phase⟩ → c.owns ∨ ∀ d ∈ rest, d.owns → c.net ≠ d.net)
    (hinside : phase = .nested → ⟨c.net, .outer⟩ ∈ rest) : CallsOk ({ c with phase := phase } :: rest) where
  below := h.below
  once := by
    obtain ⟨hfirst, hrest⟩ := pairwise_cons.mp h.once
    refine pairwise_cons.mpr ⟨fun d hd ho hd' => ?_, hrest⟩
    cases howns ho with
    | inl hmine => exact hfirst d hd hmine hd'
    | inr hfree => exact hfree d hd hd'
  inside := ⟨hinside, h.inside.2⟩
  alone d hd hterm := by
    cases mem_cons.mp hd with
    | inl heq =>
      rw [heq] at hterm
      exact absurd hterm hne
    | inr hin =>
      have hsingle := h.alone d (mem_cons_of_mem _ hin) hterm
      rw [List.cons.injEq] at hsingle
      rw [hsingle.2] at hin
      cases hin

lemma CallsOk.tail (h : CallsOk (c :: rest)) : CallsOk rest where
  below d hd := h.below d (mem_of_mem_tail hd)
  once := (pairwise_cons.mp h.once).2
  inside := h.inside.2
  alone d hd hterm := by
    have hsingle := h.alone d (mem_cons_of_mem _ hd) hterm
    rw [List.cons.injEq] at hsingle
    rw [hsingle.2] at hd
    cases hd

lemma CallsOk.push (h : CallsOk rest) (hdisp : ∀ c ∈ rest, c.dispatches = true) (net : Nat) :
    CallsOk (⟨net, .test⟩ :: rest) where
  below := hdisp
  once := by
    refine pairwise_cons.mpr ⟨fun d _ ho => ?_, h.once⟩
    simp [InjectCall.owns] at ho
  inside := ⟨nofun, h.inside⟩
  alone d hd hterm := by
    cases mem_cons.mp hd with
    | inl heq =>
      rw [heq] at hterm
      cases hterm
    | inr hin =>
      have := hdisp d hin
      simp [InjectCall.dispatches, hterm] at this

lemma goto_eq (htop : s.top task = some c) (phase : InjectPhase) :
    s.goto task phase = s.setCalls task ({ c with phase := phase } :: (s.calls task).tail) := by
  rw [InjectState.goto, calls_of_top htop]
  rfl

lemma InjectInv.recinject (h : InjectInv s) (flag : Bool) : InjectInv { s with recinject := flag } :=
  ⟨h.ok, h.mutex⟩

lemma InjectInv.goto (h : InjectInv s) (htop : s.top task = some c) (phase : InjectPhase)
    (hne : phase ≠ .terminate) (howns : InjectCall.owns ⟨c.net, phase⟩ ↔ c.owns)
    (hinside : phase = .nested → ⟨c.net, .outer⟩ ∈ (s.calls task).tail) : InjectInv (s.goto task phase) := by
  have hcalls := calls_of_top htop
  rw [goto_eq htop]
  apply h.setCalls
  · have hok := h.ok task
    rw [hcalls] at hok
    exact hok.goto phase hne (fun ho => .inl (howns.mp ho)) hinside
  intro net
  rw [hcalls]
  simp only [mem_cons, exists_eq_or_imp, tail_cons, howns]

lemma InjectInv.pop (h : InjectInv s) (hcalls : s.calls task = c :: rest) (howns : ¬c.owns) :
    InjectInv (s.setCalls task rest) := by
  have hok := h.ok task
  rw [hcalls] at hok
  apply h.setCalls hok.tail
  intro net
  simp [hcalls, howns]

lemma InjectInv.outer_below (h : InjectInv s) (htop : s.top task = some c) (howns : ¬c.owns)
    (hmutex : s.ipnnMutex c.net = some task) : ⟨c.net, .outer⟩ ∈ (s.calls task).tail := by
  obtain ⟨d, hd, hdo, hnet⟩ := (h.mutex task c.net).mp hmutex
  rw [calls_of_top htop] at hd
  cases mem_cons.mp hd with
  | inl heq =>
    rw [heq] at hdo
    exact absurd hdo howns
  | inr hin =>
    have hdisp := (h.ok task).below d hin
    have houter : d.phase = .outer := by
      cases hp : d.phase with
      | outer => rfl
      | _ => simp_all [InjectCall.dispatches, InjectCall.owns]
    rw [← hnet, ← houter]
    exact hin

lemma InjectInv.step {e : InjectEvent} (h : InjectInv s) (he : e.Legal s) (hok : TestOk s e) :
    InjectInv (injectStep s e) := by
  cases e with
  | inject task net =>
    have hall : ∀ c ∈ s.calls task, c.dispatches = true := by
      intro c hc
      cases hcalls : s.calls task with
      | nil =>
        rw [hcalls] at hc
        cases hc
      | cons d rest =>
        have hbelow := (h.ok task).below
        rw [hcalls] at hc hbelow
        cases mem_cons.mp hc with
        | inl heq => exact he c (by rw [InjectState.top, hcalls, heq]; rfl)
        | inr hin => exact hbelow c hin
    apply h.setCalls ((h.ok task).push hall net)
    intro k
    simp [InjectCall.owns]
  | test task =>
    obtain ⟨net, htop⟩ := he
    simp only [injectStep]
    by_cases hflag : s.recinject = true
    · rw [if_pos hflag]
      apply h.goto htop .nested nofun (by simp [InjectCall.owns])
      intro _
      exact h.outer_below htop (by simp [InjectCall.owns]) (hok hflag net htop)
    rw [if_neg hflag]
    exact h.goto htop .down nofun (by simp [InjectCall.owns]) nofun
  | down task got =>
    obtain ⟨net, htop, hfree⟩ := he
    have hcalls := calls_of_top htop
    simp only [injectStep]
    rw [hcalls]
    dsimp only
    by_cases hgot : got = true
    · rw [if_pos hgot]
      have hfree := hfree hgot
      have htop' : (s.setMutex net (some task)).top task = some ⟨net, .down⟩ := htop
      rw [goto_eq htop']
      apply h.take hfree
      · have hok := h.ok task
        rw [hcalls] at hok
        apply hok.goto .locked nofun _ nofun
        intro _
        right
        intro d hd hdo heq
        have hmine := (h.mutex task d.net).mpr ⟨d, by rw [hcalls]; exact mem_cons_of_mem _ hd, hdo, rfl⟩
        rw [← heq, hfree] at hmine
        cases hmine
      intro k
      rw [hcalls]
      simp [InjectCall.owns, InjectState.setMutex, eq_comm]
    rw [if_neg hgot]
    exact h.pop hcalls (by simp [InjectCall.owns])
  | set task =>
    obtain ⟨net, htop⟩ := he
    exact (h.goto htop .outer nofun (by simp [InjectCall.owns]) nofun).recinject true
  | clear task =>
    obtain ⟨net, htop⟩ := he
    exact (h.goto htop .cleared nofun (by simp [InjectCall.owns]) nofun).recinject false
  | up task =>
    obtain ⟨net, htop⟩ := he
    have hcalls := calls_of_top htop
    have hok := h.ok task
    rw [hcalls] at hok
    simp only [injectStep]
    rw [hcalls]
    exact h.give hcalls (.inr (.inr (.inl rfl))) hok.tail
  | leave task =>
    obtain ⟨net, htop⟩ := he
    exact h.pop (calls_of_top htop) (by simp [InjectCall.owns])
  | lockTerminate task net =>
    obtain ⟨hnil, hfree⟩ := he
    apply h.take hfree
    · rw [hnil]
      exact {
        below := nofun
        once := pairwise_singleton ..
        inside := ⟨nofun, trivial⟩
        alone := fun c hc _ => by rw [mem_singleton.mp hc] }
    intro k
    simp [hnil, InjectCall.owns, eq_comm]
  | terminate task => exact h
  | upTerminate task =>
    obtain ⟨net, htop⟩ := he
    have hcalls := calls_of_top htop
    have hok := h.ok task
    rw [hcalls] at hok
    simp only [injectStep]
    rw [hcalls]
    exact h.give hcalls (.inr (.inr (.inr rfl))) hok.tail

lemma dispatch_unlocked {e : InjectEvent} (hbad : ¬TestOk s e) : ¬DispatchLocked (injectStep s e) := by
  cases e with
  | test task =>
    intro hlocked
    apply hbad
    intro hflag net htop
    have hstep : injectStep s (.test task) = s.setCalls task (⟨net, .nested⟩ :: (s.calls task).tail) := by
      simp only [injectStep]
      rw [if_pos hflag, goto_eq htop]
    rw [hstep] at hlocked
    have hmine := hlocked task ⟨net, .nested⟩ (by simp [InjectState.setCalls]) rfl
    exact hmine
  | _ => exact absurd trivial hbad

end

lemma injectInv_init : InjectInv injectInit where
  ok _ := ⟨nofun, List.Pairwise.nil, trivial, nofun⟩
  mutex task net := by simp [injectInit]

/-- Messages are dispatched with the mutex, and no node of the network is terminated meanwhile, exactly in the
runs in which only a task that has the mutex finds the flag set. -/
theorem dispatch_locked_iff (es : List InjectEvent)
    (hes : injectMachine.Along injectMachine.enabled injectInit es) :
    injectMachine.Always DispatchLocked injectInit es ∧ injectMachine.Along TerminateSafe injectInit es ↔
    injectMachine.Along TestOk injectInit es := by
  apply Machine.always_and_along_iff InjectInv (fun _ h => h.dispatchLocked) _ _ injectInv_init es hes
  · intro s e h he hok
    exact ⟨h.step he hok, h.terminateSafe e⟩
  intro s e _ _ hbad hboth
  exact dispatch_unlocked hbad hboth.1

def nestedRun : List InjectEvent :=
  [.inject 0 0, .test 0, .down 0 true, .set 0, .inject 0 0, .test 0, .leave 0, .clear 0, .up 0, .lockTerminate 1 0,
    .terminate 1, .upTerminate 1]

theorem dispatch_locked_nested : injectMachine.Always DispatchLocked injectInit nestedRun ∧
    injectMachine.Along TerminateSafe injectInit nestedRun := by
  apply (dispatch_locked_iff nestedRun _).mpr
  · refine ⟨trivial, nofun, trivial, trivial, trivial, ?_, trivial, trivial, trivial, trivial, trivial, trivial, trivial⟩
    intro _ net htop
    have hcall := Option.some.inj htop
    have hnet : 0 = net := congrArg InjectCall.net hcall
    rw [← hnet]
    rfl
  refine ⟨nofun, ⟨0, rfl⟩, ⟨0, rfl, fun _ => rfl⟩, ⟨0, rfl⟩, ?_, ⟨0, rfl⟩, ⟨0, rfl⟩, ⟨0, rfl⟩, ⟨0, rfl⟩, ⟨rfl, rfl⟩,
    ⟨0, rfl⟩, ⟨0, rfl⟩, trivial⟩
  intro c hc
  have hcall := Option.some.inj hc
  rw [← hcall]
  rfl

def strangerRun : List InjectEvent :=
  [.inject 0 0, .test 0, .down 0 true, .set 0, .inject 1 1, .test 1]

theorem stranger_dispatches_unlocked : injectMachine.Along injectMachine.enabled injectInit strangerRun ∧
    ¬injectMachine.Always DispatchLocked injectInit strangerRun := by
  constructor
  · exact ⟨nofun, ⟨0, rfl⟩, ⟨0, rfl, fun _ => rfl⟩, ⟨0, rfl⟩, nofun, ⟨1, rfl⟩, trivial⟩
  intro h
  have hlast := h.last
  have hmine := hlast 1 ⟨1, .nested⟩ (mem_singleton.mpr rfl) rfl
  cases hmine

end Vde.Ipn
