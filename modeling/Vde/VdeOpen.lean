import Vde.Cmdparse

/-!
# Opening a connection with libvdeplug

`vde_open_real` takes the name of a switch, of a point-to-point socket, or of the two sides of a UDP connection, and cuts
it in place. To a switch it sends a description of the caller.
-/

namespace Vde.Plug

open Cmd (bytes atoi)

def MAXDESCR : Nat := 128

/-- `strrchr`: the offset of the last occurrence. -/
def strrchr (c : UInt8) : List UInt8 → Option Nat
  | [] => none
  | b :: s =>
    match strrchr c s with
    | some i => some (i + 1)
    | none => if b = c then some 0 else none

/-! ## Names -/

def arrow : List UInt8 := [45, 62]

structure SockName where
  udpSocket : Bool
  p2pSocket : Bool
  newPort0 : Bool
  port : Int
  name : Option (List UInt8)
  deriving DecidableEq

def plainName (name : Option (List UInt8)) : SockName := ⟨false, false, false, 0, name⟩

def sockName (given : List UInt8) : SockName :=
  if given = [] then plainName none
  else if (strstr given arrow).any fun k => (strrchr 58 (given.drop k)).isSome then
    { plainName (some given) with udpSocket := true }
  else
    match strrchr 91 given with
    | some k =>
      if given.getLast? = some 93 then
        let split := given.drop (k + 1)
        { udpSocket := false
          p2pSocket := split.head? == some 93
          newPort0 := split.head? != some 93 && atoi split == 0
          port := atoi split
          name := if k = 0 then none else some (given.take k) }
      else plainName (some given)
    | none => plainName (some given)

structure AddrCall where
  host : Option (List UInt8)
  service : List UInt8
  deriving DecidableEq

def localCall (src : List UInt8) : AddrCall :=
  match strrchr 58 src with
  | none => ⟨none, src⟩
  | some i => ⟨some src, src.drop i⟩

/-- The calls of `getaddrinfo` for a UDP connection; `bound` says that the first one finds an address to which a socket can
be bound. -/
def udpCalls (given : List UInt8) (bound : Bool) : List AddrCall :=
  match strstr given arrow with
  | none => []
  | some k =>
    let src := given.take k
    let dst := given.drop (k + 2)
    match strrchr 58 dst with
    | none => []
    | some j =>
      localCall src :: if bound then [⟨some (dst.take j), dst.drop (j + 1)⟩] else []

def addrCalls (given : List UInt8) (bound : Bool) : List AddrCall :=
  if (sockName given).udpSocket then udpCalls given bound else []

/-! ## Descriptions -/

/-- `%d` of a number that is not negative. -/
def decimal (n : Nat) : List UInt8 := bytes (Nat.toDigits 10 n)

def descrText (descr : List UInt8) (callerpwd : Option (List UInt8)) (pid : Nat) : List UInt8 :=
  descr ++ bytes [' ', 'u', 's', 'e', 'r', '='] ++ callerpwd.getD (bytes ['?', '?']) ++
    bytes [' ', 'P', 'I', 'D', '='] ++ decimal pid

def sshText (sshClient : List UInt8) : List UInt8 :=
  bytes [' ', 'S', 'S', 'H', '='] ++ sshClient.takeWhile fun c => c != 32

def snprintf (block : Block UInt8) (place : Int) (size : Nat) (text : List UInt8) : Option (Block UInt8) :=
  if size = 0 then some block
  else if 0 ≤ place then block.storeList place.toNat (text.take (size - 1) ++ [0])
  else none

def snprintfLen (text : List UInt8) : Int := if text.length < 2 ^ 31 then text.length else -1

def description (descr : List UInt8) (callerpwd : Option (List UInt8)) (pid : Nat) (sshClient : Option (List UInt8)) :
    Option (Block UInt8) :=
  let text := descrText descr callerpwd pid
  let descrlen := snprintfLen text
  (snprintf ⟨MAXDESCR, fun _ => 0⟩ 0 MAXDESCR text).bind fun block =>
    match sshClient with
    | none => some block
    | some ssh => snprintf block descrlen (toSize (MAXDESCR - descrlen)) (sshText ssh)

end Vde.Plug
