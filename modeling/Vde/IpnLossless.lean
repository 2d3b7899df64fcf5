import Vde.IpnMsg

/-!
# Broadcast on a lossless IPN network

Sockets write messages to a lossless network that broadcasts them: the calls go on in the network of
`Vde.IpnMsg`, and the dispatch of a message goes through `connectqueue`. What was handed to the protocol, what was
read, and what the calls returned is kept.
-/

namespace Vde.Ipn

open Function

def EPIPE : Int := 32
def EOVERFLOW : Int := 75

/-- A call of `ipn_node_write` by the socket of `node`; `admitted` says that it has found room in the pool. -/
structure WriteCall where
  node : Nat
  len : Nat
  admitted : Bool

/-- What a call of `ipn_node_write` returned, and its message, if it had one. -/
structure WriteResult where
  msg : Option Nat
  len : Nat
  ret : Int

/-- The network with the calls of `ipn_node_write`, and its history: the messages handed to the protocol, in this
order; for each of them the nodes other than the sender that are connected and not shut down for reading during all of
its dispatch so far; what each node has read, or got as a network device; what was flushed; and what the calls
returned. `cursor` is how far the loop of a dispatch is in `connectqueue`. Messages have their own names, `used`. -/
structure BcastState where
  net : MsgState
  mtu : Nat
  connectqueue : List Nat
  writes : Nat → Option WriteCall
  cursor : Nat → Option Nat
  used : Finset Nat
  handed : List Nat
  audience : Nat → Finset Nat
  reads : Nat → List Nat
  flushed : Nat → List Nat
  results : List WriteResult

def ipnNodeWriteCheck (shutdown : BitVec 8) (mtu len : Nat) : Option Int :=
  if shutdown &&& SEND_SHUTDOWN ≠ 0 then
    if shutdown = SHUTDOWN_XMASK then some (-ECONNRESET) else some (-EPIPE)
  else if len > mtu then some (-EOVERFLOW)
  else none

def listAfter (l : List Nat) : Option Nat → Option (List Nat)
  | none => some l
  | some n => if n ∈ l then some (l.dropWhile (· != n)).tail else none

def BcastState.Hears (s : BcastState) (n : Nat) : Prop :=
  n ∈ s.connectqueue ∧ (s.net.node n).shutdown &&& RCV_SHUTDOWN = 0

instance (s : BcastState) (n : Nat) : Decidable (s.Hears n) := inferInstanceAs (Decidable (_ ∧ _))

def MsgPhase.dispatches : MsgPhase → Option Nat
  | .handle m _ _ => some m
  | _ => none

/-- The message is in `ipn_p_handlemsg`. -/
def MsgState.Dispatched (s : MsgState) (m : Nat) : Prop := ∃ c ∈ s.calls, (s.phase c).dispatches = some m

instance (s : MsgState) (m : Nat) : Decidable (s.Dispatched m) :=
  inferInstanceAs (Decidable (∃ c ∈ s.calls, (s.phase c).dispatches = some m))

namespace BcastState

def hand (s : BcastState) (c m : Nat) : BcastState :=
  { s with
    cursor := update s.cursor c none
    handed := s.handed ++ [m]
    audience := update s.audience m
      (s.connectqueue.filter fun n => (s.writes c).all fun w => n ≠ w.node).toFinset }

def setRead (s : BcastState) (n m : Nat) : BcastState :=
  { s with reads := update s.reads n (s.reads n ++ [m]) }

def flush (s : BcastState) (n : Nat) (queue : List Nat) : BcastState :=
  { s with flushed := update s.flushed n (s.flushed n ++ queue) }

def finish (s : BcastState) (c : Nat) (result : WriteResult) : BcastState :=
  { s with writes := update s.writes c none, results := s.results ++ [result] }

def observe (s : BcastState) : BcastState :=
  { s with audience := fun m => if s.net.Dispatched m then (s.audience m).filter s.Hears else s.audience m }

end BcastState

/-! ## Steps -/

/-- A step of a call: `ipn_node_write` begins and is checked; it waits for room in the pool, or a signal comes; the loop
of `ipn_bcast_handlemsg` goes on; and the steps of the network. -/
inductive BcastEvent where
  | call (c n len : Nat)
  | wait (c : Nat) (signal : Bool)
  | next (c : Nat)
  | net (e : MsgEvent)

/-- The loop of `ipn_bcast_handlemsg`: the next node, if it is not `from`, is sent the message; after the last one the
dispatch ends. -/
def ipnBcastHandlemsg (s : BcastState) (c : Nat) : BcastState :=
  match s.net.phase c, s.writes c with
  | .handle _ none nested, some w =>
    match listAfter s.connectqueue (s.cursor c) with
    | none => { s with net := s.net.wild }
    | some [] => { s with net := msgStep s.net (if nested then .handled c else .clear c) }
    | some (n :: _) =>
      let s := { s with cursor := update s.cursor c (some n) }
      if n ≠ w.node then { s with net := msgStep s.net (.pick c n) } else s
  | _, _ => s

/-- The step, with what the history keeps: the messages that were handed over, read or flushed, and the list of the nodes. -/
def BcastState.history (s : BcastState) (e : MsgEvent) : BcastState :=
  let s' := { s with net := msgStep s.net e }
  match e with
  | .write _ m => { s' with used := insert m s.used }
  | .countAlloc _ m => { s' with used := insert m s.used }
  | .test c =>
    match s.net.phase c with
    | .test m => if s.net.recinject then s'.hand c m else s'
    | _ => s'
  | .set c =>
    match s.net.phase c with
    | .locked m => s'.hand c m
    | _ => s'
  | .send c _ _ =>
    match s.net.phase c with
    | .handle m (some n) _ => if (s.net.node n).netdev then s'.setRead n m else s'
    | _ => s'
  | .put c =>
    match s.net.phase c, s.writes c with
    | .put m, some w => s'.finish c { msg := some m, len := w.len, ret := w.len }
    | _, _ => s'
  | .read _ n =>
    match (s.net.node n).oobmsgqueue, (s.net.node n).msgqueue with
    | [], m :: _ => s'.setRead n m
    | _, _ => s'
  | .lockConnect _ n _ _ _ => { s' with connectqueue := s.connectqueue ++ [n] }
  | .flush c =>
    match s.net.phase c with
    | .change (.shutdown n) none =>
      if (s.net.node n).shutdown &&& RCV_SHUTDOWN ≠ 0 then s'.flush n (s.net.node n).msgqueue else s'
    | .change (.release n .begin) none =>
      { s' with connectqueue := s.connectqueue.erase n }.flush n (s.net.node n).msgqueue
    | _ => s'
  | _ => s'

def bcastStep (s : BcastState) : BcastEvent → BcastState
  | .call c n len =>
    (match ipnNodeWriteCheck (s.net.node n).shutdown s.mtu len with
    | some err => s.finish c { msg := none, len := len, ret := err }
    | none => { s with writes := update s.writes c (some { node := n, len := len, admitted := false }) }).observe
  | .wait c signal =>
    (match s.writes c with
    | some w =>
      if signal then s.finish c { msg := none, len := w.len, ret := -ENOMEM }
      else { s with writes := update s.writes c (some { w with admitted := true }) }
    | none => s).observe
  | .next c => (ipnBcastHandlemsg s c).observe
  | .net e => (s.history e).observe

/-- The steps of the network are those of its calls, but the writes begin with `ipn_node_write` when there is room,
the loop of the protocol finds the recipients, it sends no out-of-band messages, and allocations succeed. -/
def BcastEvent.Legal (s : BcastState) : BcastEvent → Prop
  | .call c n _ => c ∉ s.net.calls ∧ s.writes c = none ∧ n ∈ s.connectqueue
  | .wait c signal => c ∉ s.net.calls ∧ (∃ w, s.writes c = some w ∧ w.admitted = false) ∧
      (signal = false → s.net.pool.nelem < s.net.msgpoolSize)
  | .next c => ∃ m nested, s.net.In c (.handle m none nested)
  | .net e => e.Legal s.net ∧
    match e with
    | .write c m => (∃ w, s.writes c = some w ∧ w.admitted = true) ∧ m ∉ s.used
    | .countAlloc _ m => m ∉ s.used
    | .pick _ _ | .clear _ | .handled _ => False
    | .send _ oob alloc => oob = false ∧ alloc = true
    | .read c _ | .lockConnect c _ _ _ _ | .lockShutdown c _ | .lockRelease c _ => s.writes c = none
    | _ => True

def bcastMachine : Machine BcastState BcastEvent where
  enabled s e := s.net.fault = false ∧ e.Legal s
  step := bcastStep

def bcastInit (msgpoolSize mtu : Nat) : BcastState :=
  { net := msgInit true msgpoolSize, mtu := mtu, connectqueue := [], writes := fun _ => none, cursor := fun _ => none
    used := ∅, handed := [], audience := fun _ => ∅, reads := fun _ => [], flushed := fun _ => [], results := [] }

end Vde.Ipn
