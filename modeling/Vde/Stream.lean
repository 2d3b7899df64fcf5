import Vde.Lib.Bytes
import Vde.Lib.Fuel

/-!
# The packet stream of libvdeplug

`vdestream_send` puts a two byte length in front of each packet; `vdestream_recv` is fed the
chunks read from the other end and calls `frecv` on every packet it can complete. What is left
of an unfinished packet waits in `fragment` for the next chunk.
-/

namespace Vde

def maxPacket : Nat := 1521

/-- `struct vdestream`, without the descriptor and the two callbacks. `fragp` is the offset of
the pointer of that name in `fragment`. -/
structure VdeStream where
  fragment : Mem
  fragp : Nat
  rnx : Nat
  remaining : Nat

/-- A call made by `vdestream_recv`: a packet for `frecv`, or the `PACKET_LENGTH_ERROR` that
`ferr` reports with the bytes left in the chunk and the length found. -/
inductive StreamCall where
  | frecv (buf : List UInt8)
  | ferr (size expected : Nat)
  deriving DecidableEq, Repr

def vdestreamOpen : VdeStream :=
  { fragment := fun _ => 0, fragp := 0, rnx := 0, remaining := 0 }

/-- The bytes `vdestream_send` hands to `writev`; nothing is written for a packet that is too
long. -/
def vdestreamSend (buf : List UInt8) : List UInt8 :=
  if buf.length ≤ maxPacket then
    UInt8.ofNat (buf.length >>> 8) :: UInt8.ofNat (buf.length &&& 0xff) :: buf
  else []

/-- The `while (len > 1)` loop of `vdestream_recv`. Every turn takes at least the two bytes of a
header, so the length of the chunk is enough fuel. -/
def recvLoop : Nat → VdeStream → List UInt8 → List StreamCall × VdeStream
  | fuel + 1, st, b0 :: b1 :: buf =>
    let rnx := (b0.toNat <<< 8) + b1.toNat
    if rnx = 0 then recvLoop fuel { st with rnx := 0 } buf
    else if maxPacket < rnx then ([.ferr buf.length rnx], { st with rnx := 0 })
    else if buf.length < rnx then
      ([], { fragment := memcpy st.fragment 0 buf, fragp := buf.length, rnx := rnx,
             remaining := rnx - buf.length })
    else
      let r := recvLoop fuel { st with rnx := 0 } (buf.drop rnx)
      (.frecv (buf.take rnx) :: r.1, r.2)
  | _, st, _ => ([], st)

/-- A packet that the chunk does not finish is kept in `fragment`, and the next chunk goes on with it. -/
def vdestreamRecv (st : VdeStream) (buf : List UInt8) : List StreamCall × VdeStream :=
  if buf.length = 0 then ([], st)
  else if 0 < st.rnx then
    let amount := min st.remaining buf.length
    let st' : VdeStream :=
      { st with
        fragment := memcpy st.fragment st.fragp (buf.take amount)
        remaining := st.remaining - amount
        fragp := st.fragp + amount }
    let rest := buf.drop amount
    if st'.remaining = 0 then
      let r := recvLoop rest.length { st' with rnx := 0 } rest
      (.frecv (readBytes st'.fragment 0 st'.rnx) :: r.1, r.2)
    else recvLoop rest.length st' rest
  else recvLoop buf.length st buf

def recvChunks (st : VdeStream) : List (List UInt8) → List StreamCall × VdeStream
  | [] => ([], st)
  | c :: cs =>
    let r := vdestreamRecv st c
    let rs := recvChunks r.2 cs
    (r.1 ++ rs.1, rs.2)

def received (calls : List StreamCall) : List (List UInt8) :=
  calls.filterMap (fun
    | .frecv buf => some buf
    | .ferr _ _ => none)

/-- Where a call of `vdestream_recv` does not return. -/
inductive StreamFault where
  | hang
  | writeOutside
  deriving DecidableEq, Repr

def VdeStream.copy (st : VdeStream) (fragp : Nat) (bytes : List UInt8) : Except StreamFault VdeStream :=
  if fragp + bytes.length ≤ maxPacket then
    .ok { st with fragment := memcpy st.fragment fragp bytes, fragp := fragp + bytes.length }
  else .error .writeOutside

/-- A turn of the loop that `recvLoop` runs, with the calls made before it. A copy that does not fit into
`fragment` is a fault. -/
def recvTurn (_ : Nat) : List StreamCall × VdeStream × List UInt8 →
    Except StreamFault ((List StreamCall × VdeStream × List UInt8) ⊕ (List StreamCall × VdeStream))
  | (calls, st, b0 :: b1 :: buf) =>
    let rnx := (b0.toNat <<< 8) + b1.toNat
    if rnx = 0 then .ok (.inl (calls, { st with rnx := 0 }, buf))
    else if maxPacket < rnx then .ok (.inr (calls ++ [.ferr buf.length rnx], { st with rnx := 0 }))
    else if buf.length < rnx then do
      let st ← st.copy 0 buf
      pure (.inl (calls, { st with rnx := rnx, remaining := rnx - buf.length }, []))
    else .ok (.inl (calls ++ [.frecv (buf.take rnx)], { st with rnx := 0 }, buf.drop rnx))
  | (calls, st, _) => .ok (.inr (calls, st))

/-- `vdestream_recv` with the bounds of `fragment`, and fuel for its loop. -/
def vdestreamRecvIn (n : Nat) (st : VdeStream) (buf : List UInt8) :
    Except StreamFault (List StreamCall × VdeStream) :=
  if buf.length = 0 then .ok ([], st)
  else if 0 < st.rnx then do
    let amount := min st.remaining buf.length
    let st ← st.copy st.fragp (buf.take amount)
    let st : VdeStream := { st with remaining := st.remaining - amount }
    let rest := buf.drop amount
    if st.remaining = 0 then
      runLoop .hang recvTurn n ([.frecv (readBytes st.fragment 0 st.rnx)], { st with rnx := 0 }, rest)
    else runLoop .hang recvTurn n ([], st, rest)
  else runLoop .hang recvTurn n ([], st, buf)

/-! ## Frames from vde_over_ns to a stream

`send_vde` without a connection to a switch writes to a descriptor, one frame with its two byte length at a
time. `outbuf` is an array of `unsigned int`, `outp` counts in elements of it, and `outlen` is the length
computed last.
-/

/-- The static variables, the calls of `write`, whether a copy has gone behind `outbuf`, and whether a call
does not return. -/
structure SendState where
  outbuf : Mem
  outp : Nat
  outlen : Nat
  written : List (List UInt8)
  outside : Bool
  hangs : Bool

def sendInit : SendState :=
  { outbuf := fun _ => 0, outp := 0, outlen := 0, written := [], outside := false, hangs := false }

def outbufSize : Nat := 2000 * 4

def frameLength (data : List UInt8) : Nat := (2 + (data.getD 1 0).toNat + (data.getD 0 0).toNat * 256) % 65536

def SendState.expects (s : SendState) (data : List UInt8) : Nat :=
  if s.outp = 0 ∧ 2 ≤ data.length then frameLength data else s.outlen

def SendState.hold (s : SendState) (outlen : Nat) (data : List UInt8) : SendState :=
  let outbuf := memcpy s.outbuf (s.outp * 4) data
  let outp := s.outp + data.length
  let outside := s.outside || decide (outbufSize < s.outp * 4 + data.length)
  if outlen ≤ outp then
    { s with
      outbuf := outbuf, outp := 0, outlen := outlen, outside := outside
      written := s.written ++ [readBytes outbuf 0 outlen] }
  else { s with outbuf := outbuf, outp := outp, outlen := outlen, outside := outside }

/-- `send_vde`; a call for the rest takes bytes from `data`, so their number is enough for `turns`, unless the
length is zero. -/
def sendVde : Nat → SendState → List UInt8 → SendState
  | 0, s, _ => s
  | turns + 1, s, data =>
    if data.length = 0 then s
    else
      let outlen := s.expects data
      if outlen ≤ data.length then
        if outlen = 0 then { s with outlen := outlen, hangs := true }
        else
          sendVde turns { s with outlen := outlen, written := s.written ++ [data.take outlen] } (data.drop outlen)
      else s.hold outlen data

def sendChunks (s : SendState) (cs : List (List UInt8)) : SendState :=
  cs.foldl (fun s c => if s.hangs then s else sendVde c.length s c) s

end Vde
