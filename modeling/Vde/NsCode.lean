import Vde.Dns
import Vde.Lib.Bytes

/-!
# The code of vde_over_ns

`nstx_encode` writes data with the 64 characters of `map`, four for three bytes, behind a
character for the number of bytes that the last group has too many; `nstx_decode` reads it back.
The size of a buffer is computed as an `int`.
-/

namespace Vde

def mapChar (i : UInt8) : UInt8 := nsMap.getD i.toNat 0

def encodeGroup (a b c : UInt8) : List UInt8 :=
  [mapChar ((a &&& 252) >>> 2), mapChar (((a &&& 3) <<< 4) ||| ((b &&& 240) >>> 4)),
    mapChar (((b &&& 15) <<< 2) ||| ((c &&& 192) >>> 6)), mapChar (c &&& 63)]

/-- The loop of `nstx_encode`, with the `off` that it ends with. The bytes at `i` to `i + 2` are
read, those past the end of the data too. Every turn goes on by three bytes, so `len + 1` turns
are enough. -/
def encodeLoop (data : List UInt8) (len : Int) :
    Nat → Nat → Nat → Block UInt8 → Option (Nat × Block UInt8)
  | 0, _, _, _ => none
  | fuel + 1, i, off, buf =>
    if (i : Int) < len then do
      let a ← data[i]?
      let b ← data[i + 1]?
      let c ← data[i + 2]?
      let buf ← buf.storeList off (encodeGroup a b c)
      encodeLoop data len fuel (i + 3) (off + 4) buf
    else some (off, buf)

def encodeSize (len : Int) : Int :=
  toInt32 (toInt32 (Int.tdiv (toInt32 (len + 2)) 3 * 4) + 2)

def encodeCut (len : Int) : Int := if Int.tmod len 3 ≠ 0 then 3 - Int.tmod len 3 else 0

/-- `nstx_encode`: the static buffer after the call, or nothing if a byte outside of the data or of
the buffer is used. `fresh` is what `realloc` finds in the memory that it adds. -/
def nstxEncode (buf : Block UInt8) (fresh : Nat → UInt8) (data : List UInt8) (len : Int) :
    Option (Block UInt8) := do
  let buf := buf.reallocInt (encodeSize len) fresh
  let buf ← buf.store 0 (mapChar (UInt8.ofNat (encodeCut len).toNat))
  let (off, buf) ← encodeLoop data len (len.toNat + 1) 0 1 buf
  buf.store off 0

/-- `init_revmap`; `fresh` is what `malloc` finds in the 256 bytes. -/
def initRevmap (fresh : UInt8 → UInt8) : UInt8 → UInt8 :=
  (List.range nsMap.length).foldl
    (fun revmap i => Function.update revmap (mapChar (UInt8.ofNat i)) (UInt8.ofNat i)) fresh

/-- The three bytes that a turn of `nstx_decode` makes of four characters. -/
def decodeGroup (revmap : UInt8 → UInt8) (a b c d : UInt8) : List UInt8 :=
  [(revmap a <<< 2) ||| ((revmap b &&& 48) >>> 4),
    ((revmap b &&& 15) <<< 4) ||| ((revmap c &&& 60) >>> 2), ((revmap c &&& 3) <<< 6) ||| revmap d]

def decodeLoop (revmap : UInt8 → UInt8) (data : Block UInt8) (len : Int) :
    Nat → Nat → Nat → Block UInt8 → Option (Nat × Block UInt8)
  | 0, _, _, _ => none
  | fuel + 1, i, off, buf =>
    if (off : Int) + 3 < len then do
      let a ← data.load off
      let b ← data.load (off + 1)
      let c ← data.load (off + 2)
      let d ← data.load (off + 3)
      let buf ← buf.storeList i (decodeGroup revmap a b c d)
      decodeLoop revmap data len fuel (i + 3) (off + 4) buf
    else some (i, buf)

def decodeSize (len : Int) : Int := toInt32 (Int.tdiv (toInt32 (len + 3)) 4 * 3)

/-- `nstx_decode` of the string in `data`: its buffer and `*rlen`. `revmap` was made by the first
call. -/
def nstxDecode (buf : Block UInt8) (fresh : Nat → UInt8) (revmap : UInt8 → UInt8)
    (data : Block UInt8) : Option (Block UInt8 × Int) := do
  let len := toInt32 (← data.strlen)
  let buf := buf.reallocInt (decodeSize len) fresh
  let (i, buf) ← decodeLoop revmap data len (len.toNat + 1) 0 1 buf
  let first ← data.load 0
  return (buf, toInt32 (i - (revmap first).toNat))

/-- `dns_getfreespace` with its products computed as an `int`, as is the `suffixlen` stored by
`dns_setsuffix`. -/
def dnsGetfreespaceInt (suflen : Int) (pkt : DnsPkt) (type : DnsType) : Int :=
  let raw : Int := dnsMaxpkt - dnsGetpktsize pkt
  if raw < 0 then -1
  else
    let ret : Int :=
      match type with
      | .response => min (raw - 14) 253
      | .query =>
        min (Int.tdiv (toInt32 (189 * toInt32 (254 - suflen))) 256 - 6)
          (183 - Int.tdiv (toInt32 (189 * suflen)) 256)
    if 0 < ret then ret else 0

/-- `dns_data2fqdn(nstx_encode(p, n))` under the suffix `suf`, for the `n` bytes at the start of
`p`. -/
def queryName (buf : Block UInt8) (fresh : Nat → UInt8) (suf p : List UInt8) (n : Nat) :
    Option (List UInt8) := do
  let suffix ← str2lbl suf
  let e ← nstxEncode buf fresh p n
  let len ← e.strlen
  return dnsData2fqdn suffix (readBytes e.elems 0 len)

end Vde
