import Vde.Lib.Machine
import Vde.NsCode
import Vde.Pstack

/-!
# The two directions of vde_over_ns

The client cuts a frame into fragments that fit the name of a query and sends all of them at once;
the server takes the name of each query apart again and gathers the fragments.
The server keeps the frames for the client in `nstx_sendlist`; each query that waits is answered
with as much of the first frame as fits the reply.
-/

namespace Vde

def suffixlen (suf : List UInt8) : Nat := suf.length + 1

/-- A query of `nstxc_send_packet`: its identifier, the header with its payload that `nstx_encode`
and `dns_data2fqdn` make a name of, and the two bytes behind them in memory, which `nstx_encode` may
read. -/
structure NsQuery where
  id : Nat
  fragment : List UInt8
  behind : UInt8 × UInt8
  deriving DecidableEq, Repr

structure NsClient where
  id : Int
  nsid : Nat
  deriving DecidableEq, Repr

/-- How a call of `nstxc_send_packet` ends: all queries sent, `exit` without free space, a `memcpy`
of a negative length, or not within the turns given. -/
inductive SendEnd where
  | sent (queries : List NsQuery) (nsid : Nat)
  | noSpace
  | badCopy
  | running
  deriving DecidableEq, Repr

def SendEnd.after (query : NsQuery) : SendEnd → SendEnd
  | .sent queries nsid => .sent (query :: queries) nsid
  | other => other

/-- The loop of `nstxc_send_packet`. A `NULL` pointer comes with no data; `behind` are the bytes behind the fragments. -/
def sendLoop (suflen : Nat) : Nat → Nstxhdr → Nat → List UInt8 → (Nat → UInt8 × UInt8) → SendEnd
  | 0, _, _, _, _ => .running
  | turns + 1, nh, nsid, data, behind =>
    let pkt := dnsSetid (dnsSettype dnsAlloc .query) nsid
    let l := dnsGetfreespace suflen pkt .query
    if l ≤ 0 then .noSpace
    else
      let l := l - 4
      let (l, nh) := if (data.length : Int) < l then ((data.length : Int), { nh with flags := nstxLF })
        else (l, nh)
      if l < 0 then .badCopy
      else
        let query : NsQuery := ⟨pkt.id, nh.toBytes ++ data.take l.toNat, behind 0⟩
        let data := data.drop l.toNat
        let nh := { nh with seq := (nh.seq + 1) % 16 }
        if data.length ≠ 0 then (sendLoop suflen turns nh (nsid + 1) data fun i => behind (i + 1)).after query
        else .sent [query] (nsid + 1)

/-- The identifier that a call of `nstxc_send_packet` at the time `now` uses. -/
def NsClient.nextId (c : NsClient) (now : Nat) : Int := if c.id < 0 then now else c.id

/-- `nstxc_send_packet` at the time `now`, followed for a number of turns of its loop. Nothing is
assigned to the field `chan` of the header. -/
def nstxcSendPacket (turns : Nat) (suf : List UInt8) (c : NsClient) (now chan : Nat) (behind : Nat → UInt8 × UInt8)
    (data : List UInt8) : SendEnd :=
  let nh : Nstxhdr :=
    { magic := nstxMagic, seq := 0, chan := chan % 16, id := (c.nextId now % 4096).toNat, flags := 0 }
  sendLoop (suffixlen suf) turns nh c.nsid data behind

/-- What a query meets on its way: the static buffers of `nstx_encode` and `nstx_decode`, the memory that `realloc` adds
to them and that `init_revmap` finds, and the two clock readings of `nstx_handlepacket`. -/
structure QueryMem where
  encoded : Block UInt8
  freshEncoded : Nat → UInt8
  decoded : Block UInt8
  freshDecoded : Nat → UInt8
  revmap : UInt8 → UInt8
  now : Nat
  check : Nat

/-- The datagram with the query, or nothing if a byte outside of a buffer is used. -/
def NsQuery.datagram (suf : List UInt8) (mem : QueryMem) (q : NsQuery) : Option (List UInt8) :=
  (queryName mem.encoded mem.freshEncoded suf (q.fragment ++ [q.behind.1, q.behind.2]) q.fragment.length).map fun name =>
    dnsConstructpacket (dnsAddquery (dnsSetid (dnsSettype dnsAlloc .query) q.id) name)

/-- The string that `strdup` returns. -/
def strdupBlock (s : List UInt8) : Block UInt8 := ⟨s.length + 1, fun i => (s ++ [0]).getD i 0⟩

/-- What `nstx_getpacket` does with a datagram from the name server, apart from the queue of replies: the list and the
frame that is handed on, or nothing if a byte outside of a buffer is used. -/
def nstxGetpacket (suf : List UInt8) (mem : QueryMem) (list : List NstxItem) (datagram : List UInt8) :
    Option (List NstxItem × Option (List UInt8)) :=
  match dnsExtractpkt datagram with
  | .error _ => none
  | .ok (_, some ⟨_, _, ⟨some name, _, _⟩ :: _, _⟩) => do
    let suffix ← str2lbl suf
    match dnsFqdn2data suffix (cString name) with
    | none => some (list, none)
    | some data =>
      let (buf, len) ← nstxDecode mem.decoded mem.freshDecoded (initRevmap mem.revmap) (strdupBlock data)
      if len < 0 then none
      else
        let bytes ← buf.loadList 0 len.toNat
        some (nstxHandlepacket list bytes mem.now mem.check)
  | .ok _ => some (list, none)

/-- Queries that come to the server one after the other: the frames that it hands on and the list that is left. -/
def carryQueries (suf : List UInt8) : List NstxItem → List (NsQuery × QueryMem) →
    Option (List (List UInt8) × List NstxItem)
  | list, [] => some ([], list)
  | list, (q, mem) :: rest => do
    let datagram ← q.datagram suf mem
    let (list, frame) ← nstxGetpacket suf mem list datagram
    let (frames, list) ← carryQueries suf list rest
    some (frame.toList ++ frames, list)

/-- `struct nstx_senditem`, without the link; `len` is the length of the data. -/
structure NstxSenditem where
  data : List UInt8
  id : Nat
  offset : Nat
  seq : Nat
  deriving DecidableEq, Repr

structure NsServer where
  sendlist : List NstxSenditem
  id : Nat
  deriving DecidableEq, Repr

def queueSenditem (s : NsServer) (buf : List UInt8) : NsServer :=
  { sendlist := s.sendlist ++ [⟨buf, s.id + 1, 0, 0⟩], id := s.id + 1 }

/-- `dequeue_senditem` for a reply with room for `len` bytes: the header with its payload, and what
is left of the list; `none` if the list is empty or a negative length is copied. -/
def dequeueSenditem (s : NsServer) (len : Int) : Option (List UInt8 × NsServer) :=
  match s.sendlist with
  | [] => none
  | item :: next =>
    let remain : Int := item.data.length - item.offset
    let dlen := if remain < len - 4 then remain else len - 4
    if dlen < 0 then none
    else
      let payload := (item.data.drop item.offset).take dlen.toNat
      let nh : Nstxhdr := { magic := nstxMagic, seq := item.seq, chan := 0, id := item.id, flags := 0 }
      let item := { item with seq := item.seq + 1, offset := item.offset + dlen.toNat }
      if item.offset = item.data.length then
        some ({ nh with flags := nstxLF }.toBytes ++ payload, { s with sendlist := next })
      else some (nh.toBytes ++ payload, { s with sendlist := item :: next })

def replySpace (suflen id : Nat) (name : List UInt8) : Int :=
  dnsGetfreespace suflen (dnsAddquery (dnsSettype (dnsSetid dnsAlloc id) .response) name) .response

def timeoutAnswer : List UInt8 := [0xb4, 0, 0, 0]

/-- `MAXPKT`, the size of the buffer that frames are read into. -/
def maxpkt : Nat := 2000

/-- The server with a frame for the client, with a query that it answers, or with a query that it
gives up; each answer is handled by the client, with the two clock readings of
`nstx_handlepacket`. -/
inductive ReplyEvent where
  | queue (frame : List UInt8)
  | answer (id : Nat) (name : List UInt8) (now check : Nat)
  | timeout (now check : Nat)
  deriving DecidableEq, Repr

/-- The server, the `nstx_list` of the client, the frames passed to `queue_senditem` so far and
those that the client has handed on. -/
structure ReplyRun where
  server : NsServer
  items : List NstxItem
  queued : List (List UInt8)
  delivered : List (List UInt8)
  deriving DecidableEq, Repr

def ReplyRun.handle (s : ReplyRun) (answer : List UInt8) (now check : Nat) : ReplyRun :=
  let r := nstxHandlepacket s.items answer now check
  { s with items := r.1, delivered := s.delivered ++ r.2.toList }

/-- One event. A query waits as long as there is nothing to send. -/
def replyStep (suflen : Nat) (s : ReplyRun) : ReplyEvent → ReplyRun
  | .queue frame => { s with server := queueSenditem s.server frame, queued := s.queued ++ [frame] }
  | .answer id name now check =>
    match dequeueSenditem s.server (replySpace suflen id name) with
    | none => s
    | some (answer, server) => { s with server := server }.handle answer now check
  | .timeout now check => s.handle timeoutAnswer now check

/-- The server and the client as a machine: frames fit the buffer they are read into, and names
have at most 255 bytes. -/
def replyMachine (suflen : Nat) : Machine ReplyRun ReplyEvent where
  enabled _ e :=
    match e with
    | .queue frame => frame.length ≤ maxpkt
    | .answer _ name _ _ => name.length ≤ 255
    | .timeout _ _ => True
  step := replyStep suflen

def replyStart : ReplyRun := ⟨⟨[], 0⟩, [], [], []⟩

/-- The datagram with which `nstx_getpacket` and `do_timeout` answer a query. -/
def answerDatagram (id : Nat) (name data : List UInt8) : List UInt8 :=
  dnsConstructpacket (dnsAddanswer (dnsAddquery (dnsSettype (dnsSetid dnsAlloc id) .response) name) data 0)

/-- The loop of `nstxc_handle_reply`. In each turn the static buffer of `txt2data` holds something, and the clock is
read twice. -/
def replyLoop (turn : Nat → (Nat → UInt8) × Nat × Nat) : ReplyRun → List Rr → Option ReplyRun
  | s, ⟨some data, len, _⟩ :: answer => do
    let (mem, now, check) := turn answer.length
    match ← txt2data ⟨0, mem⟩ mem ⟨data.length, fun i => data.getD i 0⟩ len with
    | none => replyLoop turn s answer
    | some (buf, datalen) =>
      let bytes ← buf.loadList 0 datalen.toNat
      replyLoop turn (s.handle bytes now check) answer
  | s, _ => some s

/-- `nstxc_handle_reply`, or nothing if a byte outside of a buffer is used. -/
def nstxcHandleReply (turn : Nat → (Nat → UInt8) × Nat × Nat) (reply : List UInt8) (s : ReplyRun) : Option ReplyRun :=
  match dnsExtractpkt reply with
  | .error _ => none
  | .ok (_, none) => some s
  | .ok (_, some pkt) => replyLoop turn s pkt.answer

/-- An event, the query that it gives up if it is a timeout, and the static buffer of `txt2data`. -/
structure CarriedEvent where
  event : ReplyEvent
  id : Nat
  name : List UInt8
  mem : Nat → UInt8

/-- One event, with the answer in a datagram. -/
def carriedStep (suflen : Nat) (s : ReplyRun) (e : CarriedEvent) : Option ReplyRun :=
  match e.event with
  | .queue _ => some (replyStep suflen s e.event)
  | .answer id name now check =>
    match dequeueSenditem s.server (replySpace suflen id name) with
    | none => some s
    | some (answer, server) =>
      nstxcHandleReply (fun _ => (e.mem, now, check)) (answerDatagram id name answer) { s with server := server }
  | .timeout now check =>
    nstxcHandleReply (fun _ => (e.mem, now, check)) (answerDatagram e.id e.name timeoutAnswer) s

end Vde
