import Vde.Cryptcab

/-!
# vde_cryptcab: what the server polls

Before each `poll` the server allocates an entry for the network and one for every peer, and goes through its list to
fill them in. What `malloc` leaves in an array is `none` here.
-/

namespace Vde

def cabPollin : BitVec 16 := 0x0001
def cabPollhup : BitVec 16 := 0x0010
def cabPollnval : BitVec 16 := 0x0020

structure CabPollFd where
  fd : Nat
  events : BitVec 16
  deriving DecidableEq

structure CabPollSet where
  pfd : Nat → Option CabPollFd
  peerlist : Nat → Option CabPeer

structure CabPoller where
  list : List CabPeer
  i : Nat

inductive CabPolled where
  | failed (interrupted : Bool)
  | timeout
  | ready (revents : Nat → BitVec 16)

/-- What a call of `recv_datagram_srv` comes to. It may look at an entry behind the array `pfd`, or at one of `peerlist`
that nothing has been stored in. -/
inductive CabWake where
  | nothing
  | exits
  | network
  | plug (peer : CabPeer)
  | outside
  | uninitialised
  deriving DecidableEq

section Poll

variable (datafd : CabAddr → Nat)

def CabPeer.pollEntry (p : CabPeer) : CabPollFd := ⟨datafd p.inA, cabPollin ||| cabPollhup ||| cabPollnval⟩

def populatePoll : List CabPeer → Nat → CabPollSet → List CabPeer × CabPollSet
  | [], _, t => ([], t)
  | iter :: next, index, t =>
    let t := { t with peerlist := Function.update t.peerlist index (some iter) }
    if iter.plug then
      let t := { t with pfd := Function.update t.pfd index (some (iter.pollEntry datafd)) }
      let r := populatePoll next (index + 1) t
      (iter :: r.1, r.2)
    else if iter.state = .auth then
      let r := populatePoll next index t
      ({ iter with plug := true } :: r.1, r.2)
    else
      let r := populatePoll next index t
      (iter :: r.1, r.2)

def cabPollStart (nfd : Nat) : CabPollSet where
  pfd := fun k => if k = 0 then some ⟨nfd, cabPollin ||| cabPollhup⟩ else none
  peerlist := fun _ => none

/-- `recv_datagram_srv`; the datagram or the frame is read by the caller of this function. -/
def recvPolled (nfd : Nat) (polled : CabPolled) (now : Timeval) (s : CabPoller) : CabWake × CabPoller :=
  let allocated := 1 + s.list.length
  let r := populatePoll datafd s.list 1 (cabPollStart nfd)
  match polled with
  | .failed interrupted => (if interrupted then .nothing else .exits, { s with list := r.1 })
  | .timeout => (.nothing, { s with list := cleanPeerlist now r.1 })
  | .ready revents =>
    if revents 0 &&& cabPollin ≠ 0 then (.network, { s with list := r.1 })
    else
      let i := nextPeer r.1.length s.i
      let s := { s with list := r.1, i := i }
      if allocated ≤ i then (.outside, s)
      else if revents i &&& cabPollnval ≠ 0 ∨ revents i &&& cabPollhup ≠ 0 then (.nothing, s)
      else if revents i &&& cabPollin ≠ 0 then
        match r.2.peerlist i with
        | none => (.uninitialised, s)
        | some p => (if p.plug then .plug p else .nothing, s)
      else (.nothing, s)

end Poll

end Vde
