import Vde.Lib.Bytes
import Vde.Lib.Machine
import Vde.Lib.Timeval

/-!
# vde_cryptcab

The encrypted cable between two switches. Frames of the local switch travel in UDP datagrams of
type `PKT_DATA`; a client logs in by encrypting the challenge of the server under the key it has
stored there. The server keeps a list of peers, each with its state, and handles a datagram by a
`switch` on the sum of the state and the first byte.
-/

namespace Vde

open List

def cabMaxpkt : Nat := 2000

def pktData : UInt8 := 0x20
def pktCtl : UInt8 := 0x40
def cmdLogin : UInt8 := 0x41
def cmdChallenge : UInt8 := 0x42
def cmdResponse : UInt8 := 0x44
def cmdAuthOk : UInt8 := 0x48
def cmdDeny : UInt8 := 0x4A
def cmdKeepalive : UInt8 := 0x4F

inductive CabState where
  | closed
  | opening
  | challenge
  | auth
  | server
  | waitAuth
  deriving DecidableEq, Repr

def CabState.code : CabState → Nat
  | .closed => 0x100
  | .opening => 0x200
  | .challenge => 0x300
  | .auth => 0x400
  | .server => 0x500
  | .waitAuth => 0x600

def CabState.label (state : CabState) (cmd : UInt8) : Nat := state.code + cmd.toNat

inductive EncType where
  | noenc
  | preshared
  | ssh
  deriving DecidableEq, Repr

/-- OpenSSL's Blowfish in CBC mode with padding, under a key and an initial vector. `none` is an
error of the update or of the final call. -/
structure Blowfish where
  encrypt : List UInt8 → List UInt8 → List UInt8 → Option (List UInt8)
  decrypt : List UInt8 → List UInt8 → List UInt8 → Option (List UInt8)

structure CabConfig where
  encType : EncType
  keepalives : Bool
  remoteport : UInt16
  cipher : Blowfish

def CabConfig.encryptionDisabled (cfg : CabConfig) : Bool := cfg.encType == .noenc

/-- `data_encrypt`; `none` is the return value -1. -/
def dataEncrypt (cfg : CabConfig) (key iv src : List UInt8) : Option (List UInt8) :=
  if cfg.encryptionDisabled then some src else cfg.cipher.encrypt key iv src

/-- `data_decrypt`. Only whole blocks of eight bytes are decrypted. -/
def dataDecrypt (cfg : CabConfig) (key iv src : List UInt8) : Option (List UInt8) :=
  if cfg.encryptionDisabled then some src
  else cfg.cipher.decrypt key iv (src.take (src.length - src.length % 8))

def crcTab (i : UInt32) : UInt32 :=
  (range 8).foldl
    (fun (crc : UInt32) _ => if crc &&& 1 = 1 then (crc >>> 1) ^^^ 0xEDB88320 else crc >>> 1) i

def chksumCrc32 (block : List UInt8) : UInt32 :=
  (block.foldl
    (fun (crc : UInt32) b => ((crc >>> 8) &&& 0x00FFFFFF) ^^^ crcTab ((crc ^^^ b.toUInt32) &&& 0xFF))
    0xFFFFFFFF) ^^^ 0xFFFFFFFF

/-- `crc32`, the checksum as four bytes. -/
def crc32 (block : List UInt8) : List UInt8 :=
  let crc := chksumCrc32 block
  [crc.toUInt8, (crc >>> 8).toUInt8, (crc >>> 16).toUInt8, (crc >>> 24).toUInt8]

def setTimestamp (mycounter : UInt64) : List UInt8 :=
  (range 8).map (fun i => (mycounter >>> UInt64.ofNat (8 * i)).toUInt8)

def isvalidCrc32 (block : List UInt8) : Bool :=
  block.drop (block.length - 4) == crc32 (block.take (block.length - 4))

def cabTrailer (mycounter : UInt64) (frame : List UInt8) : List UInt8 :=
  setTimestamp mycounter ++ crc32 (frame ++ setTimestamp mycounter)

/-- What a call of `send_udp` does: the datagram it hands to `sendto`, `mycounter` after the call and
the bytes it stores behind the data. -/
structure UdpOut where
  datagram : List UInt8
  mycounter : UInt64
  trailer : List UInt8
  deriving DecidableEq, Repr

/-- The end of `send_udp` behind `data_encrypt`, which stores its result in `outpkt + 1`. After an
error `sendto` gets the length 0. -/
def sendEncrypted (cfg : CabConfig) (key iv src : List UInt8) (flags : UInt8) (mycounter : UInt64)
    (trailer : List UInt8) : Option UdpOut :=
  match dataEncrypt cfg key iv src with
  | none => some ⟨[], mycounter, trailer⟩
  | some out => if cabMaxpkt - 1 < out.length then none else some ⟨flags :: out, mycounter, trailer⟩

/-- `send_udp`; `none` when it stores behind the end of a buffer. -/
def sendUdp (cfg : CabConfig) (mycounter : UInt64) (key iv data : List UInt8) (flags : UInt8) :
    Option UdpOut :=
  let data := data.take (cabMaxpkt - 8 + 1)
  if cfg.encryptionDisabled ∨ flags ∈ [cmdChallenge, cmdLogin, cmdDeny, cmdAuthOk, cmdKeepalive] then
    some ⟨flags :: data, mycounter, []⟩
  else if flags = pktData then
    let trailer := cabTrailer mycounter data
    if cabMaxpkt < data.length + trailer.length then none
    else sendEncrypted cfg key iv (data ++ trailer) flags (mycounter + 1) trailer
  else sendEncrypted cfg key iv data flags mycounter []

structure CabAddr where
  ip : UInt32
  port : UInt16
  deriving DecidableEq, Repr

def Timeval.after (a b : Timeval) : Bool := if a.sec = b.sec then b.usec < a.usec else b.sec < a.sec

/-- `struct peer`; `plug` says whether the connection to the local switch is open. -/
structure CabPeer where
  counter : UInt64
  key : List UInt8
  iv : List UInt8
  id : List UInt8
  challenge : List UInt8
  inA : CabAddr
  expire : Timeval
  state : CabState
  plug : Bool
  deriving DecidableEq, Repr

def cabPeerZero (inA : CabAddr) (state : CabState) : CabPeer :=
  { counter := 0, key := replicate 16 0, iv := replicate 8 0, id := replicate 16 0
    challenge := replicate 128 0, inA := inA, expire := ⟨0, 0⟩, state := state, plug := false }

/-- What `read` leaves of a field when it delivers the bytes `new`. -/
def fill (old new : List UInt8) : List UInt8 := new.take old.length ++ old.drop new.length

structure Passed where
  src : CabAddr
  datagram : List UInt8
  frame : List UInt8
  deriving DecidableEq, Repr

/-- The server. `data` is the buffer of the datagram, which keeps its bytes from call to call, and `i` the place in
`pfd` that was looked at last. `sent`, `passed` and `logins` (the keys that a login has loaded) are histories, newest
first; a server that is not `alive` has stored or read behind a buffer. -/
structure CabServer where
  list : List CabPeer
  i : Nat
  mycounter : UInt64
  data : Mem
  alive : Bool
  sent : List (CabAddr × List UInt8)
  passed : List Passed
  logins : List (CabAddr × List UInt8 × List UInt8)

def cabServerInit : CabServer :=
  { list := [], i := 1, mycounter := 1, data := fun _ => 0, alive := true, sent := [], passed := [], logins := [] }

def getpeer (list : List CabPeer) (saddr : CabAddr) : Option CabPeer :=
  list.find? (fun p => p.inA = saddr)

def storePeer (p : CabPeer) : List CabPeer → List CabPeer
  | [] => []
  | q :: qs => if q.inA = p.inA then p :: qs else q :: storePeer p qs

def CabServer.store (s : CabServer) (p : CabPeer) : CabServer := { s with list := storePeer p s.list }

def cleanPeerlist (now : Timeval) : List CabPeer → List CabPeer
  | [] => []
  | p :: ps => if now.after p.expire then ps else p :: cleanPeerlist now ps

/-- What `_populatepoll` stores in `peerlist`. The place of a peer without a connection is used again for the next
one. -/
def copyPeers : List CabPeer → Nat → (Nat → Option CabPeer) → Nat → Option CabPeer
  | [], _, copies => copies
  | iter :: next, index, copies =>
    copyPeers next (if iter.plug then index + 1 else index) (Function.update copies index (some iter))

def nextPeer (n i : Nat) : Nat := if n < i + 1 then 1 else i + 1

def populatePeerlist (list : List CabPeer) : List CabPeer :=
  list.map (fun p => if p.plug = false ∧ p.state = .auth then { p with plug := true } else p)

def expireNow : UInt8 := 0

def setExpire (p : CabPeer) (cmd : UInt8) (now : Timeval) : CabPeer :=
  { p with expire := ⟨now.sec +
      (if cmd = expireNow then 3 else if cmd = cmdChallenge then 20 else if cmd = cmdLogin then 3
       else 120), 0⟩ }

def CabServer.sendUdp (cfg : CabConfig) (s : CabServer) (p : CabPeer) (data : List UInt8) (flags : UInt8) :
    CabServer :=
  match Vde.sendUdp cfg s.mycounter p.key p.iv data flags with
  | none => { s with alive := false }
  | some out => { s with mycounter := out.mycounter, sent := (p.inA, out.datagram) :: s.sent }

def accessDenied : List UInt8 := [65, 99, 99, 101, 115, 115, 32, 68, 101, 110, 105, 101, 100, 46, 0]

def denyAccess (cfg : CabConfig) (s : CabServer) (p : CabPeer) (now : Timeval) : CabServer :=
  (s.sendUdp cfg p accessDenied cmdDeny).store (setExpire { p with state := .closed } expireNow now)

inductive Urandom where
  | unopened
  | unread
  | read (bytes : List UInt8)
  deriving DecidableEq, Repr

/-- `send_challenge`. A device that does not open leaves the old bytes, which are sent; an error of
`read` leaves them too, and nothing is sent. -/
def sendChallenge (cfg : CabConfig) (s : CabServer) (p : CabPeer) : Urandom → CabServer × CabPeer
  | .unopened => (s.sendUdp cfg p p.challenge (pktCtl ||| cmdChallenge), { p with state := .challenge })
  | .unread => (s, { p with state := .challenge })
  | .read bytes =>
    let p := { p with challenge := fill p.challenge bytes }
    (s.sendUdp cfg p p.challenge (pktCtl ||| cmdChallenge), { p with state := .challenge })

def sendAuthOk (cfg : CabConfig) (s : CabServer) (p : CabPeer) (now : Timeval) : CabServer :=
  (s.sendUdp cfg p [] cmdAuthOk).store (setExpire { p with state := .auth, plug := true } cmdAuthOk now)

inductive KeyFile where
  | unopened
  | noKey
  | noIv (key : List UInt8)
  | read (key iv : List UInt8)
  deriving DecidableEq, Repr

/-- What the calls to the system return while a datagram is handled: the time, the files, and the bytes
found in the uninitialised `response`. -/
structure CabEnv where
  now : Timeval
  keyFile : KeyFile
  urandom : Urandom
  response : Mem

def rcvLogin (cfg : CabConfig) (s : CabServer) (p : CabPeer) (env : CabEnv) : CabServer :=
  match env.keyFile with
  | .unopened => denyAccess cfg s p env.now
  | .noKey => denyAccess cfg s p env.now
  | .noIv key => denyAccess cfg s { p with key := fill p.key key } env.now
  | .read key iv =>
    let p := { p with key := fill p.key key, iv := fill p.iv iv, id := readBytes s.data 1 16 }
    let r := sendChallenge cfg { s with logins := (p.inA, p.key, p.iv) :: s.logins } p env.urandom
    r.1.store (setExpire r.2 cmdChallenge env.now)

def strncmpEq (a b : Mem) (i : Nat) : Nat → Bool
  | 0 => true
  | n + 1 => a i == b i && (a i == 0 || strncmpEq a b (i + 1) n)

def CabPeer.challengeMem (p : CabPeer) : Mem := fun i => p.challenge.getD i 0

/-- `rcv_response`. Without encryption an empty datagram makes `memcpy` copy -1 bytes. -/
def rcvResponse (cfg : CabConfig) (s : CabServer) (p : CabPeer) (len : Nat) (env : CabEnv) : CabServer :=
  if cfg.encryptionDisabled ∧ len = 0 then { s with alive := false }
  else match dataDecrypt cfg p.key p.iv (readBytes s.data 1 (len - 1)) with
    | none => denyAccess cfg s p env.now
    | some out =>
      if 0 < out.length ∧ strncmpEq (memcpy env.response 0 out) p.challengeMem 0 128 then
        sendAuthOk cfg s { p with state := .auth } env.now
      else denyAccess cfg s p env.now

/-- The case `ST_AUTH + PKT_DATA` of the server. `vde_send` of -1 bytes, or without a connection,
passes nothing. -/
def rcvData (cfg : CabConfig) (s : CabServer) (p : CabPeer) (len : Nat) (now : Timeval) : CabServer :=
  if cfg.encryptionDisabled ∧ len = 0 then { s with alive := false }
  else
    let s' := s.store (setExpire p cmdKeepalive now)
    match dataDecrypt cfg p.key p.iv (readBytes s.data 1 (len - 1)) with
    | none => s'
    | some out =>
      if p.plug then { s' with passed := ⟨p.inA, readBytes s.data 0 len, out⟩ :: s'.passed } else s'

def srvSwitch (cfg : CabConfig) (s : CabServer) (p : CabPeer) (len : Nat) (env : CabEnv) : CabServer :=
  let code := p.state.label (s.data 0)
  if code = CabState.auth.label pktData then rcvData cfg s p len env.now
  else if code = CabState.auth.label cmdKeepalive then s.store (setExpire p cmdKeepalive env.now)
  else if code = CabState.auth.label cmdLogin then
    rcvLogin cfg s { setExpire p expireNow env.now with state := .opening, counter := 0 } env
  else if code = CabState.closed.label cmdLogin then
    rcvLogin cfg s { p with state := .opening, counter := 0 } env
  else if code = CabState.challenge.label cmdResponse then rcvResponse cfg s p len env
  else if p.state ≠ .auth then denyAccess cfg s p env.now
  else sendAuthOk cfg s p env.now

/-- `recv_datagram_srv` on a datagram from the network: the buffer and the list, with a new peer for
an unknown address. -/
def recvDatagramSrv (s : CabServer) (src : CabAddr) (bytes : List UInt8) (now : Timeval) : CabServer :=
  { s with
    data := memcpy s.data 0 bytes
    list := match getpeer s.list src with
      | some _ => s.list
      | none => setExpire (cabPeerZero src .closed) cmdLogin now :: s.list }

def srvFrame (cfg : CabConfig) (s : CabServer) (p : CabPeer) (frame : List UInt8) : CabServer :=
  let s := { s with data := memcpy s.data 0 frame }
  if p.state = .auth then
    match Vde.sendUdp cfg s.mycounter p.key p.iv frame pktData with
    | none => { s with alive := false }
    | some out =>
      { s with
        mycounter := out.mycounter
        data := memcpy s.data frame.length out.trailer
        sent := (p.inA, out.datagram) :: s.sent }
  else s

/-- What wakes the server up: a datagram, a connection to the switch, with the frame if there is one at the place that
is looked at next, or the timeout of `poll`. `left` is what `malloc` has left at this place of `peerlist`. -/
inductive SrvEvent where
  | datagram (src : CabAddr) (bytes : List UInt8) (env : CabEnv)
  | frame (left : CabPeer) (bytes : List UInt8)
  | timeout (now : Timeval)

/-- The entry of `peerlist` that the server looks at next. Behind the peers with a connection there is the last peer of
the list, if it has none, and then what was in the memory before. -/
def CabServer.polledPeer (s : CabServer) (left : CabPeer) : CabPeer :=
  (copyPeers s.list 1 (fun _ => none) (nextPeer s.list.length s.i)).getD left

/-- One turn of the loop of `cryptcab_server`. `peerlist` is copied before `_populatepoll` opens the
missing connections. -/
def srvStep (cfg : CabConfig) (s : CabServer) : SrvEvent → CabServer
  | .datagram src bytes env =>
    let bytes := bytes.take cabMaxpkt
    let s := recvDatagramSrv { s with list := populatePeerlist s.list } src bytes env.now
    match getpeer s.list src with
    | none => s
    | some p => srvSwitch cfg s p bytes.length env
  | .frame left bytes =>
    let p := s.polledPeer left
    let s := { s with list := populatePeerlist s.list, i := nextPeer s.list.length s.i }
    if p.plug ∧ bytes ≠ [] then srvFrame cfg s p (bytes.take cabMaxpkt) else s
  | .timeout now => { s with list := cleanPeerlist now (populatePeerlist s.list) }

def cabServer (cfg : CabConfig) : Machine CabServer SrvEvent :=
  { enabled := fun s _ => s.alive = true, step := srvStep cfg }

/-- The client. `lastLogin` and `lastOut` are the times of the last login and of the last datagram
with a frame or a keepalive. -/
structure CabClient where
  peer : CabPeer
  mycounter : UInt64
  data : Mem
  alive : Bool
  lastLogin : Timeval
  lastOut : Timeval
  sent : List (CabAddr × List UInt8)
  passed : List Passed

def CabClient.sendUdp (cfg : CabConfig) (s : CabClient) (data : List UInt8) (flags : UInt8) : CabClient :=
  match Vde.sendUdp cfg s.mycounter s.peer.key s.peer.iv data flags with
  | none => { s with alive := false }
  | some out => { s with mycounter := out.mycounter, sent := (s.peer.inA, out.datagram) :: s.sent }

/-- What `generate_key` reads and makes up, and the address of the server. -/
structure KeyMaterial where
  key : List UInt8
  iv : List UInt8
  id : List UInt8
  ip : UInt32
  deriving DecidableEq, Repr

/-- `generate_and_xmit`; the process ends when a step of it fails. -/
def generateAndXmit (cfg : CabConfig) (s : CabClient) : Option KeyMaterial → CabClient
  | none => { s with alive := false }
  | some m =>
    { s with
      peer :=
        { cabPeerZero ⟨m.ip, cfg.remoteport⟩ .closed with
          key := fill (replicate 16 0) m.key
          iv := fill (replicate 8 0) m.iv
          id := fill (replicate 16 0) m.id } }

def tryToLogin (cfg : CabConfig) (s : CabClient) (now : Timeval) : CabClient :=
  if now.sec < s.lastLogin.sec ∨ now.sec - s.lastLogin.sec < 5 then s
  else { s.sendUdp cfg s.peer.id cmdLogin with lastLogin := now }

def cabClientInit (cfg : CabConfig) (m : KeyMaterial) (now : Timeval) : CabClient :=
  let s := generateAndXmit cfg
    { peer := cabPeerZero ⟨0, 0⟩ .closed, mycounter := 1, data := fun _ => 0, alive := true
      lastLogin := ⟨0, 0⟩, lastOut := ⟨0, 0⟩, sent := [], passed := [] } (some m)
  tryToLogin cfg { s with peer := { s.peer with state := .opening } } now

/-- `send_keepalive`, as `recv_datagram` calls it after every `poll`. -/
def keepaliveTurn (cfg : CabConfig) (s : CabClient) (now : Timeval) : CabClient :=
  if Timeval.after ⟨now.sec - 30, now.usec⟩ s.lastOut ∧ s.peer.state = .auth then
    if cfg.keepalives then { s.sendUdp cfg [] cmdKeepalive with lastOut := now } else s
  else s

/-- `rcv_challenge`. For an empty datagram the length -1 makes `memcpy` fault and `data_encrypt`
fail. -/
def rcvChallenge (cfg : CabConfig) (s : CabClient) (len : Nat) : CabClient :=
  let s' :=
    if len = 0 then
      if cfg.encryptionDisabled then { s with alive := false }
      else { s with sent := (s.peer.inA, []) :: s.sent }
    else s.sendUdp cfg (readBytes s.data 1 (len - 1)) cmdResponse
  { s' with peer := { s'.peer with state := .waitAuth } }

def cliData (cfg : CabConfig) (s : CabClient) (len : Nat) : CabClient :=
  if cfg.encryptionDisabled ∧ len = 0 then { s with alive := false }
  else match dataDecrypt cfg s.peer.key s.peer.iv (readBytes s.data 1 (len - 1)) with
    | none => s
    | some out => { s with passed := ⟨s.peer.inA, readBytes s.data 0 len, out⟩ :: s.passed }

def cliSwitch (cfg : CabConfig) (s : CabClient) (len : Nat) (now : Timeval) (m : Option KeyMaterial) :
    CabClient :=
  let code := s.peer.state.label (s.data 0)
  if code = CabState.opening.label cmdChallenge then rcvChallenge cfg s len
  else if code = CabState.waitAuth.label cmdAuthOk then { s with peer := { s.peer with state := .auth } }
  else if code = CabState.auth.label pktData then cliData cfg s len
  else if code = CabState.opening.label cmdDeny ∨ code = CabState.waitAuth.label cmdDeny ∨
      code = CabState.auth.label cmdDeny then
    let s' := generateAndXmit cfg s m
    tryToLogin cfg { s' with peer := { s'.peer with state := .opening } } now
  else s

def cliFrame (cfg : CabConfig) (s : CabClient) (frame : List UInt8) (now : Timeval) : CabClient :=
  let s := { s with data := memcpy s.data 0 frame }
  if s.peer.state = .auth then
    match Vde.sendUdp cfg s.mycounter s.peer.key s.peer.iv frame pktData with
    | none => { s with alive := false }
    | some out =>
      { s with
        mycounter := out.mycounter
        data := memcpy s.data frame.length out.trailer
        lastOut := now
        sent := (s.peer.inA, out.datagram) :: s.sent }
  else tryToLogin cfg s now

/-- What wakes the client up. `m` is what a new key consists of, should one be needed. -/
inductive CliEvent where
  | datagram (src : CabAddr) (bytes : List UInt8) (now : Timeval) (m : Option KeyMaterial)
  | frame (bytes : List UInt8) (now : Timeval)
  | timeout (now : Timeval)

/-- One turn of the loop of `cryptcab_client`. A datagram is taken for one of the server when its
address is the server's, whatever its port. -/
def cliStep (cfg : CabConfig) (s : CabClient) : CliEvent → CabClient
  | .datagram src bytes now m =>
    let bytes := bytes.take cabMaxpkt
    let s := keepaliveTurn cfg s now
    let s := { s with data := memcpy s.data 0 bytes }
    if src.ip = s.peer.inA.ip then cliSwitch cfg s bytes.length now m else s
  | .frame bytes now =>
    let s := keepaliveTurn cfg s now
    if bytes ≠ [] then cliFrame cfg s (bytes.take cabMaxpkt) now else s
  | .timeout now => keepaliveTurn cfg s now

def cabClient (cfg : CabConfig) : Machine CabClient CliEvent :=
  { enabled := fun s _ => s.alive = true, step := cliStep cfg }

/-!
## Where the cipher stores

`data_encrypt` and `data_decrypt` with the arrays that they are given. Each makes two calls of the cipher, an update
and a final one, and the second stores at an offset that comes from the length of the input.
-/

/-- OpenSSL's Blowfish in CBC mode with padding, call by call. The final calls depend on what the update before them
got under the same key and initial vector; `none` is an error. When it decrypts, the update may store bytes `behind`
those that it counts: some versions decrypt the last block there and keep a copy for the final call. -/
structure EvpCipher where
  encryptUpdate : List UInt8 → List UInt8 → List UInt8 → Option (List UInt8)
  encryptFinal : List UInt8 → List UInt8 → List UInt8 → Option (List UInt8)
  decryptUpdate : List UInt8 → List UInt8 → List UInt8 → Option (List UInt8)
  behind : List UInt8 → List UInt8 → List UInt8 → List UInt8
  decryptFinal : List UInt8 → List UInt8 → List UInt8 → Option (List UInt8)

/-- The variable `ulen`. -/
def wholeBlocks (len : Nat) : Nat := len - len % 8

def dataEncryptInto (disabled : Bool) (evp : EvpCipher) (key iv : List UInt8) (src dst : Mem) (len : Nat) :
    Int × Mem :=
  if disabled then (len, memcpy dst 0 (readBytes src 0 len))
  else
    let input := readBytes src 0 len
    match evp.encryptUpdate key iv input with
    | none => (-1, dst)
    | some out =>
      let dst := memcpy dst 0 out
      match evp.encryptFinal key iv input with
      | none => (-1, dst)
      | some last => ((out.length + last.length : Nat), memcpy dst (wholeBlocks len) last)

def dataDecryptInto (disabled : Bool) (evp : EvpCipher) (key iv : List UInt8) (src dst : Mem) (len : Nat) :
    Int × Mem :=
  if disabled then (len, memcpy dst 0 (readBytes src 0 len))
  else
    let input := readBytes src 0 (wholeBlocks len)
    match evp.decryptUpdate key iv input with
    | none => (-1, dst)
    | some out =>
      let dst := memcpy (memcpy dst 0 out) out.length (evp.behind key iv input)
      match evp.decryptFinal key iv input with
      | none => (-1, dst)
      | some rest => ((out.length + rest.length : Nat), memcpy dst (wholeBlocks len) rest)

end Vde
