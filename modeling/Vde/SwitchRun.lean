import Vde.Lib.Machine
import Vde.Packet

/-!
# Runs of the switch

Everything that can happen to a switch: packets, timers, connections that open and close, and the
commands of the management console.
-/

namespace Vde

inductive SwitchEvent where
  /-- A frame received on an endpoint of `port` in a buffer that held `stack`. -/
  | packet (port : Nat) (stack : Mem) (frame : List UInt8) (malloc : Option Nat)
  | tick
  | hello
  | hashGc
  | setupEp (portno fdCtl fdData : Int) (user : BitVec 32)
  | closeEp (portno fdCtl : Int)
  | portcreate (val : Int)
  | portcreateauto
  | portremove (val : Int)
  | portsetnumports (val : Int)
  | portallocatable (arg : Option (Int × Int))
  | portsetuser (arg : Option (Int × Option (BitVec 32)))
  | portsetgroup (arg : Option (Int × Option (BitVec 32)))
  | portsethub (val : Int)
  | portsetvlan (arg : Option (Int × Int))
  | vlancreate (vlan : Int)
  | vlanremove (vlan : Int)
  | vlanaddport (arg : Option (Int × Int))
  | vlandelport (arg : Option (Int × Int))
  | fstpsetonoff (val : Int)
  | fstsetbonus (arg : Option (Int × Int × Int))
  | fstsetedge (arg : Option (Int × Int × Int))
  | hashResize (hashSize : Int)
  | hashSetMinper (e : Int)
  | hashSetGcExpire (e : Int)

variable (belongs : BitVec 32 → BitVec 32 → Bool)

def SwitchEvent.apply (s : Switch) : SwitchEvent → Switch
  | packet port stack frame malloc => handleInPacket malloc port (recvPacket stack frame) s
  | tick => { s with now := s.now + 1 }
  | hello => fstHello s
  | hashGc => { s with hash := Vde.hashGc s.now s.hash }
  | setupEp portno fdCtl fdData user => (Vde.setupEp belongs portno fdCtl fdData user s).2
  | closeEp portno fdCtl => (closeEpPortFd portno fdCtl s).2
  | portcreate val => (Vde.portcreate val s).2
  | portcreateauto => (Vde.portcreateauto s).2
  | portremove val => (Vde.portremove val s).2
  | portsetnumports val => (Vde.portsetnumports val s).2
  | portallocatable arg => (Vde.portallocatable arg s).2
  | portsetuser arg => (Vde.portsetuser arg s).2
  | portsetgroup arg => (Vde.portsetgroup arg s).2
  | portsethub val => Vde.portsethub val s
  | portsetvlan arg => (Vde.portsetvlan arg s).2
  | vlancreate vlan => (Vde.vlancreate vlan s).2
  | vlanremove vlan => (Vde.vlanremove vlan s).2
  | vlanaddport arg => (Vde.vlanaddport arg s).2
  | vlandelport arg => (Vde.vlandelport arg s).2
  | fstpsetonoff val => Vde.fstpsetonoff val s
  | fstsetbonus arg => (Vde.fstsetbonus arg s).2
  | fstsetedge arg => (Vde.fstsetedge arg s).2
  | hashResize hashSize => { s with hash := (Vde.hashResize hashSize s.hash).2 }
  | hashSetMinper e => { s with hash := Vde.hashSetMinper e s.hash }
  | hashSetGcExpire e => { s with hash := Vde.hashSetGcExpire e s.hash }

/-- What the environment guarantees: frames come from endpoints and have the lengths that the
reader passes on, `malloc` returns an address not in use, the hello timer runs while the protocol
is on, and a table that cannot be allocated ends the process. -/
def SwitchEvent.Legal (s : Switch) : SwitchEvent → Prop
  | packet port _ frame malloc =>
    s.active port ∧ ethHeaderSize ≤ frame.length ∧ frame.length ≤ sizeofPacket ∧
      ∀ a, malloc = some a → s.hash.heap.cells a = none
  | hello => s.fstp
  | hashResize hashSize => hashSize ≤ 2 ^ 30
  | _ => True

/-- The running switch. A process that has crashed takes no step. -/
def switchMachine : Machine Switch SwitchEvent where
  enabled s e := s.trap = false ∧ e.Legal s
  step s e := e.apply belongs s

def SwitchStart (s : Switch) : Prop :=
  ∃ (numports : Nat) (switchmac : List UInt8) (priority : Nat) (hub fstp : Bool) (hashSize : Nat)
      (now : Int),
    0 < numports ∧ switchmac.length = 6 ∧ priority < 65536 ∧ (hub && fstp) = false ∧ hashSize ≤ 2 ^ 30 ∧
      s = portInit numports switchmac priority hub fstp (hashInit hashSize) now

end Vde
