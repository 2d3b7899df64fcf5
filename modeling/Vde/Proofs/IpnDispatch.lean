import Vde.IpnLossless
import Vde.Proofs.IpnMsgCounts

/-!
# Dispatches that are serial

What a step of the network does to the calls and to the nodes, seen from the messages that are written. As long
as no injection finds the flag set, the mutex is with the one call that dispatches or changes the network.
-/

namespace Vde.Ipn

open Finset Function Option

/-! ## The calls -/

/-- What a call does with its message: it has not handed it to the protocol yet, it dispatches it (with the recipient
that was found), or it has dispatched it. -/
inductive Role where
  | idle
  | early (m : Nat)
  | handle (m : Nat) (next : Option Nat)
  | late (m : Nat)

def MsgPhase.role : MsgPhase → Role
  | .write m | .test m | .down m | .locked m => .early m
  | .handle m next _ => .handle m next
  | .cleared m | .put m => .late m
  | _ => .idle

def MsgState.role (s : MsgState) (c : Nat) : Role := if c ∈ s.calls then (s.phase c).role else .idle

section

variable {s s' : MsgState} {c n m : Nat} {p q : MsgPhase}

lemma role_of_in (hc : s.In c p) : s.role c = p.role := by
  rw [MsgState.role, if_pos hc.1, hc.2]

lemma role_of_notMem (hc : c ∉ s.calls) : s.role c = .idle := if_neg hc

lemma role_of_same (h : s.SameCalls s') : s'.role = s.role := by
  funext c
  rw [MsgState.role, MsgState.role, h.calls, h.phase]

lemma role_goto (hc : c ∈ s.calls) (p : MsgPhase) : (s.goto c p).role = update s.role c p.role := by
  funext c'
  by_cases heq : c' = c
  · rw [heq, update_self]
    simp [MsgState.role, hc]
  rw [update_of_ne heq]
  simp [MsgState.role, heq]

lemma role_enter (s : MsgState) (c : Nat) (p : MsgPhase) : (s.enter c p).role = update s.role c p.role := by
  funext c'
  by_cases heq : c' = c
  · rw [heq, update_self]
    simp [MsgState.role]
  rw [update_of_ne heq]
  simp [MsgState.role, heq]

lemma role_leave (s : MsgState) (c : Nat) : (s.leave c).role = update s.role c .idle := by
  funext c'
  by_cases heq : c' = c
  · rw [heq, update_self]
    simp [MsgState.role, MsgState.leave]
  rw [update_of_ne heq]
  simp [MsgState.role, MsgState.leave, heq]

lemma role_goto_same (hc : s.In c q) (hrole : p.role = q.role) : (s.goto c p).role = s.role := by
  rw [role_goto hc.1, hrole, ← role_of_in hc, update_eq_self]

lemma role_enter_idle (hc : c ∉ s.calls) (hrole : p.role = .idle) : (s.enter c p).role = s.role := by
  rw [role_enter, hrole, ← role_of_notMem hc, update_eq_self]

lemma role_leave_idle (hc : s.In c q) (hrole : q.role = .idle) : (s.leave c).role = s.role := by
  rw [role_leave, ← hrole, ← role_of_in hc, update_eq_self]

lemma injects_of_role (h : s.role c = .early m ∨ (∃ next, s.role c = .handle m next) ∨ s.role c = .late m) :
    c ∈ s.calls ∧ (s.phase c).injects = some m := by
  by_cases hc : c ∈ s.calls
  · rw [MsgState.role, if_pos hc] at h
    refine ⟨hc, ?_⟩
    cases hp : s.phase c <;> simp_all [MsgPhase.role, MsgPhase.injects]
  rw [role_of_notMem hc] at h
  simp at h

lemma dispatched_iff : s.Dispatched m ↔ ∃ c next, s.role c = .handle m next := by
  constructor
  · rintro ⟨c, hc, hm⟩
    cases hp : s.phase c with
    | handle m' next nested =>
      rw [hp] at hm
      have heq : m' = m := some.inj hm
      subst heq
      exact ⟨c, next, role_of_in ⟨hc, hp⟩⟩
    | _ => simp [hp, MsgPhase.dispatches] at hm
  rintro ⟨c, next, hrole⟩
  obtain ⟨hc, _⟩ := injects_of_role (.inr (.inl ⟨next, hrole⟩))
  refine ⟨c, hc, ?_⟩
  rw [MsgState.role, if_pos hc] at hrole
  cases hp : s.phase c with
  | handle m' next' nested =>
    rw [hp] at hrole
    cases hrole
    rfl
  | _ => simp [hp, MsgPhase.role] at hrole

end

/-! ## The mutex -/

def MsgPhase.hasMutex : MsgPhase → Bool
  | .locked _ | .handle _ _ false | .cleared _ | .change _ _ => true
  | _ => false

def MsgPhase.nested : MsgPhase → Bool
  | .handle _ _ true => true
  | _ => false

structure Serial (s : MsgState) : Prop where
  plain : ∀ c ∈ s.calls, (s.phase c).nested = false
  mutex : ∀ c ∈ s.calls, (s.phase c).hasMutex = true → s.ipnnMutex = some c

def OnlyCall (c : Nat) (s s' : MsgState) : Prop :=
  ∀ c' ∈ s'.calls, c' ≠ c → c' ∈ s.calls ∧ s'.phase c' = s.phase c'

variable {e : MsgEvent}

section

variable {s s' : MsgState} {c c' n m : Nat} {p q : MsgPhase}

lemma Serial.step (h : Serial s) (honly : OnlyCall c s s') (hplain : c ∈ s'.calls → (s'.phase c).nested = false)
    (hlocked : c ∈ s'.calls → (s'.phase c).hasMutex = true → s'.ipnnMutex = some c)
    (hmutex : s'.ipnnMutex = s.ipnnMutex ∨ s.ipnnMutex = none ∨ s.ipnnMutex = some c) : Serial s' where
  plain c' hc' := by
    by_cases heq : c' = c
    · rw [heq] at hc' ⊢
      exact hplain hc'
    obtain ⟨hold, hphase⟩ := honly c' hc' heq
    rw [hphase]
    exact h.plain c' hold
  mutex c' hc' hlock := by
    by_cases heq : c' = c
    · rw [heq] at hc' hlock ⊢
      exact hlocked hc' hlock
    obtain ⟨hold, hphase⟩ := honly c' hc' heq
    rw [hphase] at hlock
    have hhas := h.mutex c' hold hlock
    rw [hhas] at hmutex
    rcases hmutex with hsame | hnone | hother
    · exact hsame
    · exact absurd hnone (some_ne_none c')
    · exact absurd (some.inj hother) heq

lemma Serial.goto (h : Serial s) (hcalls : s'.calls = s.calls) (hphase : s'.phase = update s.phase c p)
    (hplain : p.nested = false) (hlocked : p.hasMutex = true → s'.ipnnMutex = some c)
    (hmutex : s'.ipnnMutex = s.ipnnMutex ∨ s.ipnnMutex = none ∨ s.ipnnMutex = some c) : Serial s' := by
  have honly : OnlyCall c s s' := by
    intro c' hc' hne
    rw [hcalls] at hc'
    rw [hphase, update_of_ne hne]
    exact ⟨hc', rfl⟩
  have hself : s'.phase c = p := by rw [hphase, update_self]
  apply h.step honly _ _ hmutex
  · intro _
    rw [hself]
    exact hplain
  intro _ hlock
  rw [hself] at hlock
  exact hlocked hlock

lemma Serial.enter (h : Serial s) (hcalls : s'.calls = insert c s.calls) (hphase : s'.phase = update s.phase c p)
    (hplain : p.nested = false) (hlocked : p.hasMutex = true → s'.ipnnMutex = some c)
    (hmutex : s'.ipnnMutex = s.ipnnMutex ∨ s.ipnnMutex = none ∨ s.ipnnMutex = some c) : Serial s' := by
  have honly : OnlyCall c s s' := by
    intro c' hc' hne
    rw [hcalls] at hc'
    rw [hphase, update_of_ne hne]
    exact ⟨(mem_insert.1 hc').resolve_left hne, rfl⟩
  have hself : s'.phase c = p := by rw [hphase, update_self]
  apply h.step honly _ _ hmutex
  · intro _
    rw [hself]
    exact hplain
  intro _ hlock
  rw [hself] at hlock
  exact hlocked hlock

lemma Serial.leave (h : Serial s) (hcalls : s'.calls = s.calls.erase c) (hphase : s'.phase = s.phase)
    (hmutex : s'.ipnnMutex = s.ipnnMutex ∨ s.ipnnMutex = some c) : Serial s' := by
  have honly : OnlyCall c s s' := by
    intro c' hc' _
    rw [hcalls] at hc'
    rw [hphase]
    exact ⟨mem_of_mem_erase hc', rfl⟩
  have hgone : c ∉ s'.calls := by
    rw [hcalls]
    exact notMem_erase c s.calls
  exact h.step honly (fun hc => absurd hc hgone) (fun hc => absurd hc hgone) (hmutex.imp_right .inr)

lemma Serial.same (h : Serial s) (hsame : s.SameCalls s') : Serial s' where
  plain := by
    rw [hsame.calls, hsame.phase]
    exact h.plain
  mutex := by
    rw [hsame.calls, hsame.phase, hsame.mutex]
    exact h.mutex

lemma Serial.of_handle (h : Serial s) {next : Option Nat} {nested : Bool} (hc : s.In c (.handle m next nested)) :
    nested = false ∧ s.ipnnMutex = some c := by
  have hplain := h.plain c hc.1
  have hhas := h.mutex c hc.1
  rw [hc.2] at hplain hhas
  cases nested with
  | true => cases hplain
  | false => exact ⟨rfl, hhas rfl⟩

lemma Serial.unique (h : Serial s) (hc : c ∈ s.calls) (hc' : c' ∈ s.calls) (hlock : (s.phase c).hasMutex = true)
    (hlock' : (s.phase c').hasMutex = true) : c = c' := by
  have hfirst := h.mutex c hc hlock
  rw [h.mutex c' hc' hlock'] at hfirst
  exact (some.inj hfirst).symm

lemma Serial.locked_of_handle (h : Serial s) {next : Option Nat} (hrole : s.role c = .handle m next) :
    c ∈ s.calls ∧ (s.phase c).hasMutex = true := by
  obtain ⟨hc, _⟩ := injects_of_role (.inr (.inl ⟨next, hrole⟩))
  have hplain := h.plain c hc
  rw [MsgState.role, if_pos hc] at hrole
  refine ⟨hc, ?_⟩
  cases hp : s.phase c with
  | handle m' next' nested =>
    rw [hp] at hplain
    cases nested with
    | true => cases hplain
    | false => rfl
  | _ => simp [hp, MsgPhase.role] at hrole

lemma Serial.not_handle (h : Serial s) (hmutex : s.ipnnMutex = none ∨ s.ipnnMutex = some c)
    (hc : ∀ m next, s.role c ≠ .handle m next) (c' m : Nat) (next : Option Nat) : s.role c' ≠ .handle m next := by
  intro hrole
  obtain ⟨hc', hlock⟩ := h.locked_of_handle hrole
  have hhas := h.mutex c' hc' hlock
  rw [hhas] at hmutex
  cases hmutex with
  | inl hnone => exact some_ne_none c' hnone
  | inr hother =>
    have heq := some.inj hother
    rw [heq] at hrole
    exact hc m next hrole

lemma changeStep_calls (s : MsgState) (c : Nat) (ch : Change) :
    (changeStep s c ch).ipnnMutex = s.ipnnMutex ∧ (changeStep s c ch).lossless = s.lossless ∧
      (changeStep s c ch).calls = s.calls ∧
      ((changeStep s c ch).phase = s.phase ∨
        ∃ ch', (changeStep s c ch).phase = update s.phase c (.change ch' none)) := by
  have hrecv : ∀ s n, MsgState.SameCalls s (ipnFlushRecvqueue s n) := by
    intro s n
    unfold ipnFlushRecvqueue
    split_ifs
    · exact ⟨rfl, rfl, rfl, rfl⟩
    · exact ⟨rfl, rfl, rfl, rfl⟩
  have hoob : ∀ s n, MsgState.SameCalls s (ipnFlushOobrecvqueue s n) := by
    intro s n
    unfold ipnFlushOobrecvqueue
    split_ifs
    · exact ⟨rfl, rfl, rfl, rfl⟩
    · exact ⟨rfl, rfl, rfl, rfl⟩
  cases ch with
  | connect => exact ⟨rfl, rfl, rfl, .inl rfl⟩
  | shutdown n =>
    rw [changeStep]
    split_ifs
    · have hsame := hrecv s n
      exact ⟨hsame.mutex, hsame.lossless, hsame.calls, .inl hsame.phase⟩
    · exact ⟨rfl, rfl, rfl, .inl rfl⟩
  | release n stage =>
    cases stage with
    | begin =>
      have hsame := hrecv (s.setNode n { s.node n with connected := false }) n
      exact ⟨hsame.mutex, hsame.lossless, hsame.calls, .inr ⟨_, congrArg (update · c _) hsame.phase⟩⟩
    | flushed =>
      have hsame := hoob s n
      exact ⟨hsame.mutex, hsame.lossless, hsame.calls, .inr ⟨_, congrArg (update · c _) hsame.phase⟩⟩
    | flushedOob => exact ⟨rfl, rfl, rfl, .inr ⟨_, rfl⟩⟩
    | detached => exact ⟨rfl, rfl, rfl, .inl rfl⟩

lemma msgStep_serial (h : Serial s) (he : e.Legal s)
    (hok : ∀ c, e = .test c → s.recinject = false) : Serial (msgStep s e) := by
  cases e with
  | write c m => exact h.enter rfl rfl rfl (fun hlock => Bool.noConfusion hlock) (.inl rfl)
  | copy c ok =>
    obtain ⟨m, hc⟩ := he
    simp only [msgStep, hc.2]
    cases ok with
    | true => exact h.goto rfl rfl rfl (fun hlock => Bool.noConfusion hlock) (.inl rfl)
    | false => exact h.goto rfl rfl rfl (fun hlock => Bool.noConfusion hlock) (.inl rfl)
  | test c =>
    obtain ⟨m, hc⟩ := he
    simp only [msgStep, hc.2]
    rw [hok c rfl]
    exact h.goto rfl rfl rfl (fun hlock => Bool.noConfusion hlock) (.inl rfl)
  | down c got =>
    obtain ⟨⟨m, hc⟩, hfree⟩ := he
    simp only [msgStep, hc.2]
    cases got with
    | true => exact h.goto rfl rfl rfl (fun _ => rfl) (.inr (.inl (hfree rfl)))
    | false => exact h.goto rfl rfl rfl (fun hlock => Bool.noConfusion hlock) (.inl rfl)
  | set c =>
    obtain ⟨m, hc⟩ := he
    have hhas := h.mutex c hc.1 (by rw [hc.2]; rfl)
    simp only [msgStep, hc.2]
    exact h.goto rfl rfl rfl (fun _ => hhas) (.inl rfl)
  | pick c n =>
    obtain ⟨⟨m, nested, hc⟩, _⟩ := he
    obtain ⟨hplain, hhas⟩ := h.of_handle hc
    subst hplain
    simp only [msgStep, hc.2]
    exact h.goto rfl rfl rfl (fun _ => hhas) (.inl rfl)
  | send c oob alloc =>
    obtain ⟨m, n, nested, hc⟩ := he
    obtain ⟨hplain, hhas⟩ := h.of_handle hc
    subst hplain
    have hsame : s.SameCalls (if oob then ipnProtoOobsendmsg s n m alloc else ipnProtoSendmsg s n m alloc) := by
      split_ifs
      · exact ipnProtoOobsendmsg_calls s n m alloc
      · exact ipnProtoSendmsg_calls s n m alloc
    simp only [msgStep, hc.2]
    exact (h.same hsame).goto rfl rfl rfl (fun _ => hsame.mutex.trans hhas) (.inl rfl)
  | clear c =>
    obtain ⟨m, hc⟩ := he
    obtain ⟨_, hhas⟩ := h.of_handle hc
    simp only [msgStep, hc.2]
    exact h.goto rfl rfl rfl (fun _ => hhas) (.inl rfl)
  | up c =>
    obtain ⟨m, hc⟩ := he
    have hhas := h.mutex c hc.1 (by rw [hc.2]; rfl)
    simp only [msgStep, hc.2]
    exact h.goto rfl rfl rfl (fun hlock => Bool.noConfusion hlock) (.inr (.inr hhas))
  | handled c =>
    obtain ⟨m, hc⟩ := he
    exact Bool.noConfusion (h.of_handle hc).1
  | put c =>
    obtain ⟨m, hc⟩ := he
    simp only [msgStep, hc.2]
    exact h.leave rfl rfl (.inl rfl)
  | read c n =>
    obtain ⟨_, _, hsome⟩ := he
    obtain ⟨⟨m, node⟩, hread⟩ := isSome_iff_exists.1 hsome
    simp only [msgStep, hread]
    exact h.enter rfl rfl rfl (fun hlock => Bool.noConfusion hlock) (.inl rfl)
  | consume c =>
    obtain ⟨m, hc⟩ := he
    simp only [msgStep, hc.2]
    exact h.leave rfl rfl (.inl rfl)
  | setShutdown n shutdown => exact h.same ⟨rfl, rfl, rfl, rfl⟩
  | lockConnect c n netdev oobNumnodes shutdown => exact h.enter rfl rfl rfl (fun _ => rfl) (.inr (.inl he.1.2))
  | lockShutdown c n => exact h.enter rfl rfl rfl (fun _ => rfl) (.inr (.inl he.1.2))
  | lockRelease c n => exact h.enter rfl rfl rfl (fun _ => rfl) (.inr (.inl he.1.2))
  | countAlloc c m =>
    obtain ⟨⟨ch, hc, _⟩, _⟩ := he
    have hhas := h.mutex c hc.1 (by rw [hc.2]; rfl)
    simp only [msgStep, hc.2]
    exact h.goto rfl rfl rfl (fun _ => hhas) (.inl rfl)
  | countSend c n alloc =>
    obtain ⟨⟨ch, m, hc⟩, _⟩ := he
    simp only [msgStep, hc.2]
    exact h.same (ipnProtoOobsendmsg_calls s n m alloc)
  | countPut c =>
    obtain ⟨ch, m, hc⟩ := he
    have hhas := h.mutex c hc.1 (by rw [hc.2]; rfl)
    simp only [msgStep, hc.2]
    exact h.goto rfl rfl rfl (fun _ => hhas) (.inl rfl)
  | flush c =>
    obtain ⟨ch, hc⟩ := he
    have hhas := h.mutex c hc.1 (by rw [hc.2]; rfl)
    obtain ⟨hmutex, hlossless, hcalls, hphase⟩ := changeStep_calls s c ch
    simp only [msgStep, hc.2]
    cases hphase with
    | inl hsame => exact h.same ⟨hcalls, hsame, hmutex, hlossless⟩
    | inr hgoto =>
      obtain ⟨ch', hgoto⟩ := hgoto
      exact h.goto hcalls hgoto rfl (fun _ => hmutex.trans hhas) (.inl hmutex)
  | upChange c =>
    obtain ⟨ch, hc, _⟩ := he
    have hhas := h.mutex c hc.1 (by rw [hc.2]; rfl)
    simp only [msgStep, hc.2]
    cases ch with
    | connect => exact h.leave rfl rfl (.inr hhas)
    | shutdown n => exact h.leave rfl rfl (.inr hhas)
    | release n stage => exact h.goto rfl rfl rfl (fun hlock => Bool.noConfusion hlock) (.inr (.inr hhas))
  | freeNode c =>
    obtain ⟨n, hc⟩ := he
    simp only [msgStep, hc.2]
    exact h.leave rfl rfl (.inl rfl)
  | other recinject => exact h.same ⟨rfl, rfl, rfl, rfl⟩

lemma msgStep_lossless (he : e.Legal s) : (msgStep s e).lossless = s.lossless := by
  cases e with
  | send c oob alloc =>
    obtain ⟨m, n, nested, hc⟩ := he
    simp only [msgStep, hc.2]
    cases oob with
    | true => exact (ipnProtoOobsendmsg_calls s n m alloc).lossless
    | false => exact (ipnProtoSendmsg_calls s n m alloc).lossless
  | countSend c n alloc =>
    obtain ⟨⟨ch, m, hc⟩, _⟩ := he
    simp only [msgStep, hc.2]
    exact (ipnProtoOobsendmsg_calls s n m alloc).lossless
  | flush c =>
    obtain ⟨ch, hc⟩ := he
    simp only [msgStep, hc.2]
    exact (changeStep_calls s c ch).2.1
  | upChange c =>
    obtain ⟨ch, hc, _⟩ := he
    simp only [msgStep, hc.2]
    cases ch <;> rfl
  | down c got =>
    obtain ⟨⟨m, hc⟩, _⟩ := he
    simp only [msgStep, hc.2]
    cases got <;> rfl
  | write | setShutdown | lockConnect | lockShutdown | lockRelease | other => rfl
  | _ =>
    simp only [msgStep]
    split <;> rfl

/-! ## Roles -/

def MsgEvent.KeepsRoles (s : MsgState) : MsgEvent → Prop
  | .copy _ ok => ok = true
  | .test _ => s.recinject = false
  | .down _ got => got = true
  | .write _ _ | .set _ | .pick _ _ | .send _ _ _ | .clear _ | .handled _ | .put _ => False
  | _ => True

lemma msgStep_role (he : e.Legal s) (hkeeps : e.KeepsRoles s) : (msgStep s e).role = s.role := by
  cases e with
  | write | set | pick | send | clear | handled | put => exact hkeeps.elim
  | copy c ok =>
    obtain ⟨m, hc⟩ := he
    have hcopied : ok = true := hkeeps
    simp only [msgStep, hc.2]
    rw [if_pos hcopied]
    exact role_goto_same hc rfl
  | test c =>
    obtain ⟨m, hc⟩ := he
    have hflag : s.recinject = false := hkeeps
    simp only [msgStep, hc.2, hflag]
    exact role_goto_same hc rfl
  | down c got =>
    obtain ⟨⟨m, hc⟩, _⟩ := he
    have hgot : got = true := hkeeps
    simp only [msgStep, hc.2]
    rw [if_pos hgot]
    exact role_goto_same hc rfl
  | up c =>
    obtain ⟨m, hc⟩ := he
    simp only [msgStep, hc.2]
    exact role_goto_same hc rfl
  | read c n =>
    obtain ⟨hc, _, hsome⟩ := he
    obtain ⟨⟨m, node⟩, hread⟩ := isSome_iff_exists.1 hsome
    simp only [msgStep, hread]
    have hc' : c ∉ (s.setNode n node).calls := hc
    exact role_enter_idle hc' rfl
  | consume c =>
    obtain ⟨m, hc⟩ := he
    simp only [msgStep, hc.2]
    exact role_leave_idle hc rfl
  | setShutdown n shutdown => rfl
  | lockConnect c n netdev oobNumnodes shutdown => exact role_enter_idle he.1.1 rfl
  | lockShutdown c n => exact role_enter_idle he.1.1 rfl
  | lockRelease c n => exact role_enter_idle he.1.1 rfl
  | countAlloc c m =>
    obtain ⟨⟨ch, hc, _⟩, _⟩ := he
    simp only [msgStep, hc.2]
    exact role_goto_same hc rfl
  | countSend c n alloc =>
    obtain ⟨⟨ch, m, hc⟩, _⟩ := he
    simp only [msgStep, hc.2]
    exact role_of_same (ipnProtoOobsendmsg_calls s n m alloc)
  | countPut c =>
    obtain ⟨ch, m, hc⟩ := he
    simp only [msgStep, hc.2]
    exact role_goto_same hc rfl
  | flush c =>
    obtain ⟨ch, hc⟩ := he
    obtain ⟨hmutex, hlossless, hcalls, hphase⟩ := changeStep_calls s c ch
    simp only [msgStep, hc.2]
    cases hphase with
    | inl hsame => exact role_of_same ⟨hcalls, hsame, hmutex, hlossless⟩
    | inr hgoto =>
      obtain ⟨ch', hgoto⟩ := hgoto
      rw [← @role_goto_same s c (.change ch' none) (.change ch none) hc rfl]
      funext c'
      rw [MsgState.role, MsgState.role, hcalls, hgoto]
      rfl
  | upChange c =>
    obtain ⟨ch, hc, _⟩ := he
    simp only [msgStep, hc.2]
    cases ch with
    | connect => exact role_leave_idle hc rfl
    | shutdown n => exact role_leave_idle hc rfl
    | release n stage => exact role_goto_same hc rfl
  | freeNode c =>
    obtain ⟨n, hc⟩ := he
    simp only [msgStep, hc.2]
    exact role_leave_idle hc rfl
  | other recinject => rfl

end

/-! ## The nodes -/

structure SameNodes (s s' : MsgState) : Prop where
  live : s'.live = s.live
  connected : ∀ n, (s'.node n).connected = (s.node n).connected
  ipn : ∀ n, (s'.node n).ipn = (s.node n).ipn
  netdev : ∀ n, (s'.node n).netdev = (s.node n).netdev
  msgqueue : ∀ n, (s'.node n).msgqueue = (s.node n).msgqueue

section

variable {s s' : MsgState} {c n m : Nat} {node : MsgNode}

lemma SameNodes.of_eq (hlive : s'.live = s.live) (hnode : s'.node = s.node) : SameNodes s s' :=
  ⟨hlive, by simp [hnode], by simp [hnode], by simp [hnode], by simp [hnode]⟩

lemma SameNodes.setNode (hlive : s'.live = s.live) (hnode : s'.node = update s.node n node)
    (hconnected : node.connected = (s.node n).connected) (hipn : node.ipn = (s.node n).ipn)
    (hnetdev : node.netdev = (s.node n).netdev) (hqueue : node.msgqueue = (s.node n).msgqueue) : SameNodes s s' where
  live := hlive
  connected n' := by
    rw [hnode]
    by_cases heq : n' = n
    · rw [heq, update_self, hconnected]
    · rw [update_of_ne heq]
  ipn n' := by
    rw [hnode]
    by_cases heq : n' = n
    · rw [heq, update_self, hipn]
    · rw [update_of_ne heq]
  netdev n' := by
    rw [hnode]
    by_cases heq : n' = n
    · rw [heq, update_self, hnetdev]
    · rw [update_of_ne heq]
  msgqueue n' := by
    rw [hnode]
    by_cases heq : n' = n
    · rw [heq, update_self, hqueue]
    · rw [update_of_ne heq]

lemma ipnProtoOobsendmsg_nodes (s : MsgState) (n m : Nat) (alloc : Bool) :
    SameNodes s (ipnProtoOobsendmsg s n m alloc) := by
  have hcases := ipnProtoOobsendmsg_cases s n m alloc
  rcases hcases with hsame | hwild | ⟨_, _, htaken⟩
  · rw [hsame]
    exact .of_eq rfl rfl
  · rw [hwild]
    exact .of_eq rfl rfl
  rw [htaken]
  exact .setNode rfl rfl rfl rfl rfl rfl

def MsgEvent.ChangesNodes : MsgEvent → Prop
  | .send _ _ _ | .read _ _ | .lockConnect _ _ _ _ _ | .flush _ | .freeNode _ => True
  | _ => False

lemma msgStep_nodes (he : e.Legal s) (hkeeps : ¬e.ChangesNodes) : SameNodes s (msgStep s e) := by
  cases e with
  | send | read | lockConnect | flush | freeNode => exact absurd trivial hkeeps
  | setShutdown n shutdown => exact .setNode rfl rfl rfl rfl rfl rfl
  | countSend c n alloc =>
    obtain ⟨⟨ch, m, hc⟩, _⟩ := he
    simp only [msgStep, hc.2]
    exact ipnProtoOobsendmsg_nodes s n m alloc
  | upChange c =>
    obtain ⟨ch, hc, _⟩ := he
    simp only [msgStep, hc.2]
    cases ch with
    | connect => exact .of_eq rfl rfl
    | shutdown n => exact .of_eq rfl rfl
    | release n stage => exact .setNode rfl rfl rfl rfl rfl rfl
  | down c got =>
    obtain ⟨⟨m, hc⟩, _⟩ := he
    simp only [msgStep, hc.2]
    cases got with
    | true => exact .of_eq rfl rfl
    | false => exact .of_eq rfl rfl
  | write | lockShutdown | lockRelease | other => exact .of_eq rfl rfl
  | _ =>
    simp only [msgStep]
    split
    · exact .of_eq rfl rfl
    · exact .of_eq rfl rfl

end

end Vde.Ipn
