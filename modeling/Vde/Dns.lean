import Mathlib.Algebra.Ring.Nat
import Vde.Lib.Block

/-!
# The DNS packets of vde_over_ns

Frames travel in the names of DNS queries and in TXT records. A name is kept in label form: each
label with its length in front. `str2lbl` and `data2lbl` make that form out of a dotted name and
out of data, `dns_constructpacket` and `dns_extractpkt` are the writer and the reader of packets.

C strings are lists of bytes without the terminating zero; a block that a length goes with is the
list of its bytes.
-/

namespace Vde

/-- The alphabet `map` of encode.c: letters, `-` and `_`, and the digits with the zero last. -/
def nsMap : List UInt8 :=
  (List.range' 97 26 ++ List.range' 65 26 ++ [45, 95] ++ List.range' 49 9 ++ [48]).map UInt8.ofNat

def cString (bytes : List UInt8) : List UInt8 := bytes.takeWhile (· != 0)

/-- `strstr`: the offset of the first occurrence. -/
def strstr (haystack needle : List UInt8) : Option Nat :=
  (List.range (haystack.length + 1)).find? (fun i => needle.isPrefixOf (haystack.drop i))

def str2lblLoop : Nat → List UInt8 → List UInt8 → Option (List UInt8)
  | fuel + 1, ptr, buf =>
    match ptr.findIdx? (· == 0x2e) with
    | some chunklen =>
      if 63 < chunklen ∨ chunklen = 0 then none
      else str2lblLoop fuel (ptr.drop (chunklen + 1))
        (buf ++ UInt8.ofNat chunklen :: ptr.take chunklen)
    | none => some (buf ++ UInt8.ofNat ptr.length :: ptr ++ [0])
  | 0, _, _ => none

/-- `str2lbl`: the label form of a dotted name, or `NULL`. Every turn takes a dot away. -/
def str2lbl (data : List UInt8) : Option (List UInt8) := str2lblLoop (data.length + 1) data []

/-- The loop of `_cstringify`; it cuts off chunks of at most `clen` bytes. -/
def cstringifyLoop (clen : Nat) : Nat → List UInt8 → List UInt8
  | fuel + 1, s =>
    if s.length = 0 then [0]
    else
      let llen := if clen < s.length then clen else s.length
      UInt8.ofNat llen :: s.take llen ++ cstringifyLoop clen fuel (s.drop llen)
  | 0, _ => [0]

def cstringify (data : List UInt8) (clen : Nat) : List UInt8 :=
  cstringifyLoop clen data.length data

def data2lbl (data : List UInt8) : List UInt8 := cstringify data 63

def data2txt (data : List UInt8) : List UInt8 := cstringify data 255

/-- The loop of `lbl2data` from offset `s`; the byte behind a string is its terminating zero. -/
def lbl2dataLoop (data : List UInt8) (len : Nat) : Nat → Nat → List UInt8
  | fuel + 1, s =>
    let llen := (data.getD s 0).toNat
    if 63 < llen ∨ (len : Int) - (s + 1 : Nat) < llen then []
    else if llen = 0 then []
    else (data.drop (s + 1)).take llen ++ lbl2dataLoop data len fuel (s + 1 + llen)
  | 0, _ => []

/-- `lbl2data`: the contents of the labels that lie in the first `len` bytes. -/
def lbl2data (data : List UInt8) (len : Nat) : List UInt8 := lbl2dataLoop data len (len + 1) 0

def dnsData2fqdn (suffix data : List UInt8) : List UInt8 :=
  cString (data2lbl data) ++ cString suffix

def dnsFqdn2data (suffix fqdn : List UInt8) : Option (List UInt8) :=
  match strstr fqdn (cString suffix) with
  | some off => if off ≠ 0 then some (cString (lbl2data fqdn off)) else none
  | none => none

/-- `struct rr`, without the link to the next one. A `NULL` pointer is `none`; `link` is the index of
the query that an answer belongs to, or -1. -/
structure Rr where
  data : Option (List UInt8)
  len : Nat
  link : Int
  deriving DecidableEq, Repr

inductive DnsType where
  | query
  | response
  deriving DecidableEq, Repr

/-- `struct dnspkt`. The type is `none` until `dns_settype` is called. -/
structure DnsPkt where
  id : Nat
  type : Option DnsType
  query : List Rr
  answer : List Rr
  deriving DecidableEq, Repr

def dnsAlloc : DnsPkt := { id := 0, type := none, query := [], answer := [] }

/-- `dns_setid`; the field is an `unsigned short`. -/
def dnsSetid (pkt : DnsPkt) (id : Nat) : DnsPkt := { pkt with id := id % 65536 }

def dnsSettype (pkt : DnsPkt) (type : DnsType) : DnsPkt := { pkt with type := some type }

/-- `dns_addquery` of a string; the copy has its terminating zero. The index it returns is that of
the new query. -/
def dnsAddquery (pkt : DnsPkt) (data : List UInt8) : DnsPkt :=
  { pkt with query := pkt.query ++ [⟨some (data ++ [0]), data.length + 1, 0⟩] }

def dnsAddanswer (pkt : DnsPkt) (data : List UInt8) (link : Nat) : DnsPkt :=
  { pkt with answer := pkt.answer ++ [⟨some (data2txt data), (data2txt data).length, link⟩] }

def dnsGetpktsize (pkt : DnsPkt) : Nat :=
  12 + (pkt.query.map (fun rr => rr.len + 4)).sum + (pkt.answer.map (fun rr => rr.len + 12)).sum

def dnsMaxpkt : Nat := 512

/-- `dns_getfreespace`, for the `suffixlen` that `dns_setsuffix` has stored. The divisions round
towards zero. -/
def dnsGetfreespace (suffixlen : Nat) (pkt : DnsPkt) (type : DnsType) : Int :=
  let raw : Int := dnsMaxpkt - dnsGetpktsize pkt
  if raw < 0 then -1
  else
    let ret : Int :=
      match type with
      | .response => min (raw - 14) 253
      | .query =>
        min (Int.tdiv (189 * (254 - (suffixlen : Int))) 256 - 6)
          (183 - Int.tdiv (189 * (suffixlen : Int)) 256)
    if 0 < ret then ret else 0

def rrBytes (rr : Rr) : List UInt8 := rr.data.getD []

/-- The query section of `dns_constructpacket` from offset `off` on: each name is followed by its
type and class, and its offset is noted. -/
def querySection : Nat → List Rr → List Nat × List UInt8
  | _, [] => ([], [])
  | off, rr :: list =>
    let r := querySection (off + rr.len + 4) list
    (off :: r.1, rrBytes rr ++ [0, 16, 0, 1] ++ r.2)

/-- The answer section: a pointer to the query, type, class, a time to live of zero and the data
with its length. -/
def answerSection (offsets : List Nat) (list : List Rr) : List UInt8 :=
  (list.map (fun rr =>
    let off := offsets.getD rr.link.toNat 0
    [UInt8.ofNat (0xc0 ||| off / 256), UInt8.ofNat (off % 256), 0, 16, 0, 1, 0, 0, 0, 0,
      UInt8.ofNat (rr.len / 256), UInt8.ofNat (rr.len % 256)] ++ rrBytes rr)).flatten

/-- `dns_constructpacket`. The block is cleared first, so the bytes not written are zero. -/
def dnsConstructpacket (pkt : DnsPkt) : List UInt8 :=
  let flags : List UInt8 := if pkt.type = some .response then [0x84, 0x80] else [0x01, 0]
  let queries := querySection 12 pkt.query
  [UInt8.ofNat (pkt.id / 256), UInt8.ofNat (pkt.id % 256)] ++ flags ++
    [0, UInt8.ofNat pkt.query.length, 0, UInt8.ofNat pkt.answer.length, 0, 0, 0, 0] ++
    queries.2 ++ answerSection queries.1 pkt.answer

inductive Fault where
  | outside (off : Nat)
  | nullPointer
  deriving DecidableEq, Repr

def readByte (buf : List UInt8) (off : Nat) : Except Fault UInt8 :=
  match buf[off]? with
  | some b => .ok b
  | none => .error (.outside off)

def readShort (buf : List UInt8) (off : Nat) : Except Fault Nat := do
  let hi ← readByte buf off
  let lo ← readByte buf (off + 1)
  return hi.toNat * 256 + lo.toNat

def readBlock (buf : List UInt8) (off n : Nat) : Except Fault (List UInt8) :=
  if off + n ≤ buf.length ∨ n = 0 then .ok ((buf.drop off).take n) else .error (.outside (off + n - 1))

/-- A `char` as an `unsigned int`; `char` is signed, as on x86. -/
def charToUnsigned (c : UInt8) : Nat := if c.toNat < 128 then c.toNat else c.toNat + 4294967040

/-- The loop of `decompress_label`. A pointer is followed at most 21 times and labels only move
forward, so `22 * (msglen + 1)` turns are enough. -/
def decompressLoop (msg : List UInt8) :
    Nat → Nat → Nat → List UInt8 → Except Fault (Option (List UInt8))
  | 0, _, _, _ => .ok none
  | fuel + 1, ptr, followed, buf => do
    let chunklen := charToUnsigned (← readByte msg ptr)
    if chunklen = 0 then
      return if buf = [] then none else some (buf ++ [0])
    else if 63 < chunklen then
      if (msg.length : Int) - 1 ≤ ptr then return none
      else if 20 < followed then return none
      else
        let low ← readByte msg (ptr + 1)
        let offset := (chunklen % 64 * 256 + charToUnsigned low) % 4294967296
        if msg.length ≤ offset then return none
        else decompressLoop msg fuel offset (followed + 1) buf
    else if msg.length ≤ ptr + chunklen + 1 then return none
    else
      let label ← readBlock msg ptr (chunklen + 1)
      decompressLoop msg fuel (ptr + chunklen + 1) followed (buf ++ label)

def decompressLabel (msg : List UInt8) (lbl : Nat) : Except Fault (Option (List UInt8)) :=
  decompressLoop msg (22 * (msg.length + 1)) lbl 0 []

/-- The loop of `_skip_lbl`, with the `u_int16_t` that it counts down. It moves forward in every
turn and stops at the end of the packet at the latest. -/
def skipLoop (buf : List UInt8) : Nat → Nat → Nat → Except Fault (Option Nat × Nat)
  | 0, ptr, _ => .error (.outside ptr)
  | fuel + 1, ptr, len => do
    let b ← readByte buf ptr
    if b = 0 then return (some (ptr + 1), (len + 65535) % 65536)
    else if len < 2 then return (none, len)
    else if b &&& 0xc0 ≠ 0 then return (some (ptr + 2), (len - 1 + 65535) % 65536)
    else
      let len := (len + 65536 - b.toNat) % 65536
      if len < 1 then return (none, len)
      else skipLoop buf fuel (ptr + b.toNat + 1) len

/-- `_skip_lbl`: the place behind the name, or `NULL`, and what is left of `len`. -/
def skipLbl (buf : List UInt8) (ptr len : Nat) : Except Fault (Option Nat × Nat) :=
  skipLoop buf (buf.length + 1) ptr len

structure Turn where
  ptr : Nat
  remain : Nat
  deriving DecidableEq, Repr

structure Extracted where
  ptr : Nat
  remain : Nat
  offsets : List Nat
  query : List Rr
  answer : List Rr
  turns : List Turn
  deriving DecidableEq, Repr

/-- One turn of the query loop; `none` if the packet is given up. -/
def extractQuery (buf : List UInt8) (x : Extracted) : Except Fault (List Turn × Option Extracted) := do
  let turns := x.turns ++ [⟨x.ptr, x.remain⟩]
  match ← decompressLabel buf x.ptr with
  | none => return (turns, none)
  | some data =>
    match ← skipLbl buf x.ptr x.remain with
    | (none, _) => return (turns, none)
    | (some ptr, remain) =>
      return (turns, some
        { ptr := ptr + 4
          remain := (remain + 65532) % 65536
          offsets := x.offsets ++ [x.ptr % 65536]
          query := x.query ++ [⟨some data, (cString data).length + 1, 0⟩]
          answer := x.answer
          turns := turns })

def extractLink (buf : List UInt8) (offsets : List Nat) (ptr : Nat) : Except Fault Int := do
  let b0 ← readByte buf ptr
  if b0 &&& 0xc0 = 0xc0 then
    let b1 ← readByte buf (ptr + 1)
    let off := b0.toNat % 64 * 256 + b1.toNat
    match offsets.findIdx? (· == off) with
    | some j => return j
    | none => return -1
  else return -1

/-- One turn of the answer loop. Nothing but the place is changed by a record that is no TXT. -/
def extractAnswer (buf : List UInt8) (x : Extracted) : Except Fault Extracted := do
  let turns := x.turns ++ [⟨x.ptr, x.remain⟩]
  let link ← extractLink buf x.offsets x.ptr
  match ← skipLbl buf x.ptr x.remain with
  | (none, _) => .error .nullPointer
  | (some nsh, remain) =>
    let type ← readShort buf nsh
    let datalen ← readShort buf (nsh + 8)
    let remain := (remain + 65526) % 65536
    if type ≠ 0x10 then
      return { x with
        ptr := nsh + 10 + datalen
        remain := (remain + 65536 - datalen) % 65536
        answer := x.answer ++ [⟨none, 0, link⟩]
        turns := turns }
    else
      let data ← readBlock buf (nsh + 10) datalen
      return { x with
        ptr := nsh + 10 + datalen
        remain := (remain + 65536 - datalen) % 65536
        answer := x.answer ++ [⟨some data, datalen, link⟩]
        turns := turns }

def extractQueries (buf : List UInt8) : Nat → Extracted → Except Fault (List Turn × Option Extracted)
  | 0, x => return (x.turns, some x)
  | qdcount + 1, x => do
    match ← extractQuery buf x with
    | (turns, none) => return (turns, none)
    | (_, some x) => extractQueries buf qdcount x

def extractAnswers (buf : List UInt8) : Nat → Extracted → Except Fault Extracted
  | 0, x => return x
  | ancount + 1, x => do
    extractAnswers buf ancount (← extractAnswer buf x)

def dnsExtractpkt (buf : List UInt8) : Except Fault (List Turn × Option DnsPkt) := do
  if buf.length < 17 then return ([], none)
  else
    let id ← readShort buf 0
    let qdcount ← readShort buf 4
    let ancount ← readShort buf 6
    let x : Extracted :=
      { ptr := 12, remain := (buf.length - 12) % 65536, offsets := [], query := [], answer := []
        turns := [] }
    match ← extractQueries buf qdcount x with
    | (turns, none) => return (turns, none)
    | (_, some x) =>
      let x ← extractAnswers buf ancount x
      return (x.turns, some { id := id, type := none, query := x.query, answer := x.answer })

/-! ## TXT records in memory

`_cstringify` and `txt2data` write into static buffers, whose sizes they compute before. Lengths are passed as `int`
and counted as `unsigned int`. -/

/-- The loop of `_cstringify` over the data that is left, with its `d` and `*dlen`, which it returns with the
buffer. Every turn takes some data, so `len + 1` turns are enough. -/
def cstringifyTurns (clen : Nat) :
    Nat → List UInt8 → Nat → Int → Block UInt8 → Option (Nat × Int × Block UInt8)
  | 0, _, _, _, _ => none
  | fuel + 1, s, d, dlen, buf =>
    if 0 < s.length then do
      let llen := if clen < s.length then clen else s.length
      let buf ← buf.store d (UInt8.ofNat llen)
      let buf ← buf.storeList (d + 1) (s.take llen)
      cstringifyTurns clen fuel (s.drop llen) (d + 1 + llen) (toInt32 (dlen + (llen + 1))) buf
    else some (d, dlen, buf)

def cstringifySize (len clen : Nat) : Nat := (len + len / clen + 2) % 4294967296

/-- `_cstringify`: the static buffer and `*dlen` after the call, or nothing if a byte outside of the buffer is
written. `fresh` is what `realloc` finds in the memory that it adds. -/
def cstringifyBuf (buf : Block UInt8) (fresh : Nat → UInt8) (data : List UInt8) (clen : Nat) :
    Option (Block UInt8 × Int) := do
  let buf := buf.realloc (cstringifySize data.length clen) fresh
  let (d, dlen, buf) ← cstringifyTurns clen (data.length + 1) data 0 0 buf
  let buf ← buf.store d 0
  return (buf, toInt32 (dlen + 1))

def data2txtBuf (buf : Block UInt8) (fresh : Nat → UInt8) (data : List UInt8) : Option (Block UInt8 × Int) :=
  cstringifyBuf buf fresh data 255

/-- The loop of `txt2data` with its `s` and `d`: the `d` that it ends with and the buffer, `NULL`, or nothing
if a byte outside of a buffer is used. `len - (s - data)` has 64 bits. -/
def txt2dataTurns (data : Block UInt8) (len : Nat) :
    Nat → Nat → Nat → Block UInt8 → Option (Option (Nat × Block UInt8))
  | 0, _, _, _ => none
  | fuel + 1, s, d, buf => do
    let llen := (← data.load s).toNat
    if (len : Int) - (s + 1 : Nat) < llen then return none
    else
      let bytes ← data.loadList (s + 1) llen
      let buf ← buf.storeList d bytes
      if llen = 0 then return some (d, buf) else txt2dataTurns data len fuel (s + 1 + llen) (d + llen) buf

def txt2data (buf : Block UInt8) (fresh : Nat → UInt8) (data : Block UInt8) (dlen : Int) :
    Option (Option (Block UInt8 × Int)) := do
  let len := (dlen % 4294967296).toNat
  match ← txt2dataTurns data len (len + 1) 0 0 (buf.realloc len fresh) with
  | none => return none
  | some (d, buf) =>
    let buf ← buf.store d 0
    return some (buf, toInt32 d)

end Vde
