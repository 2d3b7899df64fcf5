import Mathlib.Logic.Function.Basic

/-!
# Injection of messages in IPN networks

Tasks inject messages in networks and terminate nodes of networks, one step at a time. All share one flag,
`recinject`, which says that an injection is going on; it does not say whose. `ipn_p_handlemsg` sends to
network devices as well, which may inject the message again, in the same network or in another one: so a
task has a stack of calls.
-/

namespace Vde.Ipn

/-- Where a call is: an injection before it looks at the flag, before the mutex, with the mutex, in
`ipn_p_handlemsg` with the mutex, after it has cleared the flag, or in `ipn_p_handlemsg` because of the
flag; or the call terminates a node and has the mutex. -/
inductive InjectPhase where
  | test
  | down
  | locked
  | outer
  | cleared
  | nested
  | terminate
  deriving DecidableEq

structure InjectCall where
  net : Nat
  phase : InjectPhase
  deriving DecidableEq

/-- `ipn_p_handlemsg` of the network runs. -/
def InjectCall.dispatches (c : InjectCall) : Bool := c.phase = .outer || c.phase = .nested

/-- The flag, the tasks that have the mutexes of the networks, and the calls of the tasks, the innermost in
front. -/
structure InjectState where
  recinject : Bool
  ipnnMutex : Nat → Option Nat
  calls : Nat → List InjectCall

/-- A step of a task. `down` with `got = false` is an interrupted `down_interruptible`. -/
inductive InjectEvent where
  | inject (task net : Nat)
  | test (task : Nat)
  | down (task : Nat) (got : Bool)
  | set (task : Nat)
  | clear (task : Nat)
  | up (task : Nat)
  | leave (task : Nat)
  | lockTerminate (task net : Nat)
  | terminate (task : Nat)
  | upTerminate (task : Nat)

namespace InjectState

def setCalls (s : InjectState) (task : Nat) (calls : List InjectCall) : InjectState :=
  { s with calls := Function.update s.calls task calls }

def setMutex (s : InjectState) (net : Nat) (owner : Option Nat) : InjectState :=
  { s with ipnnMutex := Function.update s.ipnnMutex net owner }

def top (s : InjectState) (task : Nat) : Option InjectCall := (s.calls task).head?

def goto (s : InjectState) (task : Nat) (phase : InjectPhase) : InjectState :=
  match s.calls task with
  | [] => s
  | c :: rest => s.setCalls task ({ c with phase := phase } :: rest)

end InjectState

/-- A step of the innermost injection of a task. -/
def injectStep (s : InjectState) : InjectEvent → InjectState
  | .inject task net => s.setCalls task (⟨net, .test⟩ :: s.calls task)
  | .test task => s.goto task (if s.recinject then .nested else .down)
  | .down task got =>
    match s.calls task with
    | [] => s
    | c :: rest => if got then (s.setMutex c.net (some task)).goto task .locked else s.setCalls task rest
  | .set task => { s.goto task .outer with recinject := true }
  | .clear task => { s.goto task .cleared with recinject := false }
  | .up task =>
    match s.calls task with
    | [] => s
    | c :: rest => (s.setMutex c.net none).setCalls task rest
  | .leave task => s.setCalls task (s.calls task).tail
  | .lockTerminate task net => (s.setMutex net (some task)).setCalls task (⟨net, .terminate⟩ :: s.calls task)
  | .terminate _ => s
  | .upTerminate task =>
    match s.calls task with
    | [] => s
    | c :: rest => (s.setMutex c.net none).setCalls task rest

/-- A task begins a call when it has none, and an injection also from `ipn_p_handlemsg`; the other steps follow
the phases. A mutex is got when it is free. -/
def InjectEvent.Legal (s : InjectState) : InjectEvent → Prop
  | .inject task _ => ∀ c ∈ s.top task, c.dispatches = true
  | .test task => ∃ net, s.top task = some ⟨net, .test⟩
  | .down task got => ∃ net, s.top task = some ⟨net, .down⟩ ∧ (got = true → s.ipnnMutex net = none)
  | .set task => ∃ net, s.top task = some ⟨net, .locked⟩
  | .clear task => ∃ net, s.top task = some ⟨net, .outer⟩
  | .up task => ∃ net, s.top task = some ⟨net, .cleared⟩
  | .leave task => ∃ net, s.top task = some ⟨net, .nested⟩
  | .lockTerminate task net => s.calls task = [] ∧ s.ipnnMutex net = none
  | .terminate task | .upTerminate task => ∃ net, s.top task = some ⟨net, .terminate⟩

end Vde.Ipn
