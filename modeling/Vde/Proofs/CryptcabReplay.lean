import Mathlib.Algebra.Ring.Nat
import Vde.Proofs.CryptcabSteps

/-!
# Data between cryptcab peers

What becomes of the datagrams of type `PKT_DATA`. The sender stores a counter and a checksum behind
a frame before it encrypts them; server and client decrypt and hand over all that they find. So a
frame arrives with the trailer behind it, and datagrams are as fresh as the network delivers them.
-/

namespace Vde

open List

/-! ## What is handed to the local switch -/

inductive SrvArrives (cfg : CabConfig) (s : CabServer) : SrvEvent → Passed → Prop
  | mk (src : CabAddr) (bytes : List UInt8) (env : CabEnv) (p : CabPeer) (plain : List UInt8)
      (hp : getpeer s.list src = some p) (hauth : p.state = .auth)
      (hdata : firstByte s.data (bytes.take cabMaxpkt) = pktData)
      (hlen : ¬(cfg.encryptionDisabled ∧ (bytes.take cabMaxpkt).length = 0))
      (hplain : dataDecrypt cfg p.key p.iv (bytes.take cabMaxpkt).tail = some plain) :
      SrvArrives cfg s (.datagram src bytes env) ⟨src, bytes.take cabMaxpkt, plain⟩

inductive CliArrives (cfg : CabConfig) (s : CabClient) : CliEvent → Passed → Prop
  | mk (src : CabAddr) (bytes : List UInt8) (now : Timeval) (m : Option KeyMaterial) (plain : List UInt8)
      (hip : src.ip = s.peer.inA.ip) (hauth : s.peer.state = .auth)
      (hdata : firstByte s.data (bytes.take cabMaxpkt) = pktData)
      (hlen : ¬(cfg.encryptionDisabled ∧ (bytes.take cabMaxpkt).length = 0))
      (hplain : dataDecrypt cfg s.peer.key s.peer.iv (bytes.take cabMaxpkt).tail = some plain) :
      CliArrives cfg s (.datagram src bytes now m) ⟨s.peer.inA, bytes.take cabMaxpkt, plain⟩

@[simp] lemma denyAccess_passed (cfg : CabConfig) (s : CabServer) (p : CabPeer) (now : Timeval) :
    (denyAccess cfg s p now).passed = s.passed := by
  rw [denyAccess_eq]

@[simp] lemma sendAuthOk_passed (cfg : CabConfig) (s : CabServer) (p : CabPeer) (now : Timeval) :
    (sendAuthOk cfg s p now).passed = s.passed := by
  rw [sendAuthOk_eq]

lemma rcvLogin_passed (cfg : CabConfig) (s : CabServer) (p : CabPeer) (env : CabEnv) :
    (rcvLogin cfg s p env).passed = s.passed := by
  have h := rcvLogin_cases cfg s p env
  generalize rcvLogin cfg s p env = s' at h ⊢
  cases h with
  | denied q now _ => exact denyAccess_passed cfg s q now
  | challenged => rfl

lemma rcvResponse_passed (cfg : CabConfig) (s : CabServer) (p : CabPeer) (len : Nat) (env : CabEnv) :
    (rcvResponse cfg s p len env).passed = s.passed := by
  unfold rcvResponse
  split
  · rfl
  split
  · exact denyAccess_passed cfg s p env.now
  split
  · exact sendAuthOk_passed cfg s _ env.now
  · exact denyAccess_passed cfg s p env.now

lemma srvFrame_passed (cfg : CabConfig) (s : CabServer) (p : CabPeer) (frame : List UInt8) :
    (srvFrame cfg s p frame).passed = s.passed := by
  simp only [srvFrame]
  split
  · split <;> rfl
  · rfl

variable {cfg : CabConfig}

lemma srvStep_arrives {s : CabServer} {e : SrvEvent} {x : Passed}
    (h : SrvArrives cfg s e x) : (srvStep cfg s e).passed = x :: s.passed := by
  cases h with
  | mk src bytes env p plain hp hauth hdata hlen hplain =>
    have hsender := senderOf_known hp env.now
    have hstate : (senderOf s src env.now).state = .auth := by
      rw [hsender, CabPeer.populated_state]
      exact hauth
    have hplug : (senderOf s src env.now).plug = true := by
      rw [hsender]
      exact CabPeer.populated_plug hauth
    obtain ⟨b, hb⟩ := p.populated_eq
    rw [srvStep_datagram, srvSwitch_data hstate hdata]
    unfold rcvData
    rw [if_neg hlen]
    have hpayload : readBytes (srvReceived s src bytes env.now).data 1 ((bytes.take cabMaxpkt).length - 1) =
        (bytes.take cabMaxpkt).tail := readBytes_memcpy_payload s.data _
    have hbytes : readBytes (srvReceived s src bytes env.now).data 0 (bytes.take cabMaxpkt).length =
        bytes.take cabMaxpkt := readBytes_memcpy_zero s.data _
    have hkey : dataDecrypt cfg (senderOf s src env.now).key (senderOf s src env.now).iv
        (bytes.take cabMaxpkt).tail = some plain := by
      rw [hsender, hb]
      exact hplain
    simp only [hpayload, hbytes, hkey, hplug, if_true, senderOf_inA]
    rfl

lemma srvStep_passed (cfg : CabConfig) (s : CabServer) (e : SrvEvent) :
    (srvStep cfg s e).passed = s.passed ∨ ∃ x, SrvArrives cfg s e x := by
  cases e with
  | timeout now => exact Or.inl rfl
  | frame left bytes =>
    apply Or.inl
    simp only [srvStep]
    split
    · exact srvFrame_passed cfg _ _ _
    · rfl
  | datagram src bytes env =>
    rw [srvStep_datagram]
    have hcase := srvSwitch_cases cfg (srvReceived s src bytes env.now) (senderOf s src env.now)
      (bytes.take cabMaxpkt).length env
    generalize srvSwitch cfg (srvReceived s src bytes env.now) (senderOf s src env.now)
      (bytes.take cabMaxpkt).length env = s' at hcase ⊢
    cases hcase with
    | keepalive => exact Or.inl rfl
    | login q => exact Or.inl (rcvLogin_passed cfg _ q env)
    | response => exact Or.inl (rcvResponse_passed cfg _ _ _ env)
    | deny => exact Or.inl (denyAccess_passed cfg _ _ env.now)
    | authOk => exact Or.inl (sendAuthOk_passed cfg _ _ env.now)
    | data h hb =>
      unfold rcvData
      by_cases hlen : cfg.encryptionDisabled ∧ (bytes.take cabMaxpkt).length = 0
      · rw [if_pos hlen]
        exact Or.inl rfl
      rw [if_neg hlen]
      have hpayload : readBytes (srvReceived s src bytes env.now).data 1
          ((bytes.take cabMaxpkt).length - 1) = (bytes.take cabMaxpkt).tail := readBytes_memcpy_payload s.data _
      obtain ⟨p, hp, hsender⟩ := senderOf_state s src env.now (by rw [h]; decide)
      obtain ⟨b, hpop⟩ := p.populated_eq
      rw [hsender] at h
      simp only [hpayload]
      cases hplain : dataDecrypt cfg (senderOf s src env.now).key (senderOf s src env.now).iv
          (bytes.take cabMaxpkt).tail with
      | none => exact Or.inl rfl
      | some plain =>
        apply Or.inr
        rw [hsender, hpop] at hplain
        rw [CabPeer.populated_state] at h
        exact ⟨_, .mk src bytes env p plain hp h hb hlen hplain⟩

lemma keepaliveTurn_frame (cfg : CabConfig) (s : CabClient) (now : Timeval) : (keepaliveTurn cfg s now).peer =
    s.peer ∧ (keepaliveTurn cfg s now).data = s.data ∧ (keepaliveTurn cfg s now).passed = s.passed := by
  unfold keepaliveTurn CabClient.sendUdp
  rw [sendUdp_clear cfg _ _ _ _ (by decide)]
  split
  · split
    · exact ⟨rfl, rfl, rfl⟩
    · exact ⟨rfl, rfl, rfl⟩
  · exact ⟨rfl, rfl, rfl⟩

@[simp] lemma CabClient.sendUdp_passed (cfg : CabConfig) (s : CabClient) (data : List UInt8) (flags : UInt8) :
    (s.sendUdp cfg data flags).passed = s.passed := by
  unfold CabClient.sendUdp
  split <;> rfl

lemma tryToLogin_passed (cfg : CabConfig) (s : CabClient) (now : Timeval) :
    (tryToLogin cfg s now).passed = s.passed := by
  unfold tryToLogin
  split
  · rfl
  · exact s.sendUdp_passed cfg _ _

lemma rcvChallenge_passed (cfg : CabConfig) (s : CabClient) (len : Nat) :
    (rcvChallenge cfg s len).passed = s.passed := by
  unfold rcvChallenge
  split
  · split <;> rfl
  · exact s.sendUdp_passed cfg _ _

lemma generateAndXmit_passed (cfg : CabConfig) (s : CabClient) (m : Option KeyMaterial) :
    (generateAndXmit cfg s m).passed = s.passed := by
  cases m <;> rfl

lemma cliSwitch_data {s : CabClient} {len : Nat} {now : Timeval} {m : Option KeyMaterial}
    (h : s.peer.state = .auth) (hb : s.data 0 = pktData) : cliSwitch cfg s len now m = cliData cfg s len := by
  unfold cliSwitch
  simp only [CabState.label_inj, h, hb]
  rfl

lemma cliSwitch_passed (cfg : CabConfig) (s : CabClient) (len : Nat) (now : Timeval) (m : Option KeyMaterial) :
    (cliSwitch cfg s len now m).passed = s.passed ∨ s.peer.state = .auth ∧ s.data 0 = pktData := by
  by_cases h : s.peer.state = .auth ∧ s.data 0 = pktData
  · exact Or.inr h
  apply Or.inl
  unfold cliSwitch
  simp only [CabState.label_inj, if_neg h]
  split
  · exact rcvChallenge_passed cfg s len
  split
  · rfl
  split
  · rw [tryToLogin_passed]
    exact generateAndXmit_passed cfg s m
  · rfl

lemma cliStep_datagram (cfg : CabConfig) (s : CabClient) (src : CabAddr) (bytes : List UInt8) (now : Timeval)
    (m : Option KeyMaterial) : ∃ s' : CabClient, s'.peer = s.peer ∧ s'.data =
    memcpy s.data 0 (bytes.take cabMaxpkt) ∧ s'.passed = s.passed ∧ cliStep cfg s (.datagram src bytes now m) =
    if src.ip = s.peer.inA.ip then cliSwitch cfg s' (bytes.take cabMaxpkt).length now m else s' := by
  obtain ⟨hpeer, hdata, hpassed⟩ := keepaliveTurn_frame cfg s now
  refine ⟨{ keepaliveTurn cfg s now with data := memcpy s.data 0 (bytes.take cabMaxpkt) }, hpeer, rfl,
    hpassed, ?_⟩
  simp only [cliStep, hpeer, hdata]

lemma cliStep_arrives {s : CabClient} {e : CliEvent} {x : Passed}
    (h : CliArrives cfg s e x) : (cliStep cfg s e).passed = x :: s.passed := by
  cases h with
  | mk src bytes now m plain hip hauth hdata hlen hplain =>
    obtain ⟨s', hpeer, hmem, hpassed, hstep⟩ := cliStep_datagram cfg s src bytes now m
    rw [hstep, if_pos hip, cliSwitch_data (hpeer ▸ hauth) (hmem ▸ hdata)]
    unfold cliData
    rw [if_neg hlen, hmem, hpeer, readBytes_memcpy_payload, readBytes_memcpy_zero]
    simp only [hplain, hpassed]

lemma cliFrame_passed (cfg : CabConfig) (s : CabClient) (frame : List UInt8) (now : Timeval) :
    (cliFrame cfg s frame now).passed = s.passed := by
  simp only [cliFrame]
  split
  · split <;> rfl
  · exact tryToLogin_passed cfg _ now

lemma cliStep_passed (cfg : CabConfig) (s : CabClient) (e : CliEvent) :
    (cliStep cfg s e).passed = s.passed ∨ ∃ x, CliArrives cfg s e x := by
  cases e with
  | timeout now => exact Or.inl (keepaliveTurn_frame cfg s now).2.2
  | frame bytes now =>
    obtain ⟨_, _, hpassed⟩ := keepaliveTurn_frame cfg s now
    apply Or.inl
    rw [← hpassed]
    simp only [cliStep]
    split
    · exact cliFrame_passed cfg _ _ now
    · rfl
  | datagram src bytes now m =>
    obtain ⟨s', hpeer, hmem, hpassed, hstep⟩ := cliStep_datagram cfg s src bytes now m
    rw [hstep]
    by_cases hip : src.ip = s.peer.inA.ip
    · rw [if_pos hip]
      rcases cliSwitch_passed cfg s' (bytes.take cabMaxpkt).length now m with h | ⟨h, hb⟩
      · exact Or.inl (h.trans hpassed)
      rw [cliSwitch_data h hb]
      rw [hpeer] at h
      rw [hmem] at hb
      unfold cliData
      by_cases hlen : cfg.encryptionDisabled ∧ (bytes.take cabMaxpkt).length = 0
      · rw [if_pos hlen]
        exact Or.inl hpassed
      rw [if_neg hlen, hmem, hpeer, readBytes_memcpy_payload]
      cases hplain : dataDecrypt cfg s.peer.key s.peer.iv (bytes.take cabMaxpkt).tail with
      | none => exact Or.inl hpassed
      | some plain => exact Or.inr ⟨_, .mk src bytes now m plain hip h hb hlen hplain⟩
    rw [if_neg hip]
    exact Or.inl hpassed

/-! ## Frames arrive with their trailer -/

/-- The cipher decrypts what it has encrypted. Padding fills up the last block of eight bytes, or is a
block of its own. -/
def Blowfish.Inverts (b : Blowfish) (key iv src : List UInt8) : Prop :=
  ∃ out, b.encrypt key iv src = some out ∧ out.length = (src.length / 8 + 1) * 8 ∧
    b.decrypt key iv out = some src

def HandsOver (before after : List Passed) (frame : List UInt8) : Prop :=
  ∃ src datagram, after = ⟨src, datagram, frame⟩ :: before

@[simp] lemma cabTrailer_length (mycounter : UInt64) (frame : List UInt8) :
    (cabTrailer mycounter frame).length = 12 := by
  simp [cabTrailer, setTimestamp, crc32]

lemma sendUdp_data (henc : cfg.encryptionDisabled = false) {key iv : List UInt8}
    {mycounter : UInt64} {frame : List UInt8} (hmax : frame.length ≤ 1522)
    (hcipher : cfg.cipher.Inverts key iv (frame ++ cabTrailer mycounter frame)) : ∃ out,
    sendUdp cfg mycounter key iv frame pktData = some ⟨pktData :: out, mycounter + 1, cabTrailer mycounter frame⟩ ∧
    out.length ≤ 1999 ∧ dataDecrypt cfg key iv out = some (frame ++ cabTrailer mycounter frame) := by
  obtain ⟨out, hout, hlen, hdec⟩ := hcipher
  simp only [length_append, cabTrailer_length] at hlen
  refine ⟨out, ?_, by omega, ?_⟩
  · unfold sendUdp
    have htake : frame.take (cabMaxpkt - 8 + 1) = frame := take_of_length_le (by unfold cabMaxpkt; omega)
    have hcmd : pktData ∉ [cmdChallenge, cmdLogin, cmdDeny, cmdAuthOk, cmdKeepalive] := by decide
    have hclear : ¬(cfg.encryptionDisabled ∨
        pktData ∈ [cmdChallenge, cmdLogin, cmdDeny, cmdAuthOk, cmdKeepalive]) := by
      rw [henc]
      simpa using hcmd
    have hroom : ¬cabMaxpkt < frame.length + (cabTrailer mycounter frame).length := by
      rw [cabTrailer_length]
      unfold cabMaxpkt
      omega
    have hfits : ¬cabMaxpkt - 1 < out.length := by
      unfold cabMaxpkt
      omega
    have henc' : dataEncrypt cfg key iv (frame ++ cabTrailer mycounter frame) = some out := by
      unfold dataEncrypt
      rw [henc]
      exact hout
    simp only [htake, if_neg hclear, if_neg hroom, sendEncrypted, henc', if_neg hfits, if_true]
  have hblocks : out.length % 8 = 0 := by omega
  unfold dataDecrypt
  simp only [henc, Bool.false_eq_true, if_false, hblocks, Nat.sub_zero, take_length]
  exact hdec

lemma not_handsOver {before after : List Passed} {src : CabAddr} {datagram frame : List UInt8}
    {mycounter : UInt64} (h : after = ⟨src, datagram, frame ++ cabTrailer mycounter frame⟩ :: before) :
    ¬HandsOver before after frame := by
  rintro ⟨src', datagram', hafter⟩
  rw [h] at hafter
  have hframe : frame ++ cabTrailer mycounter frame = frame :=
    congrArg Passed.frame (cons.inj hafter).1
  have hlen := congrArg length hframe
  rw [length_append, cabTrailer_length] at hlen
  omega

/-- Neither side strips the trailer: a frame that is sent with encryption on arrives with twelve bytes
more. -/
theorem frame_never_exact (cfg : CabConfig) (henc : cfg.encryptionDisabled = false) (key iv : List UInt8)
    (mycounter : UInt64) (frame : List UInt8) (hmax : frame.length ≤ 1522)
    (hcipher : cfg.cipher.Inverts key iv (frame ++ cabTrailer mycounter frame)) :
    ∃ out, sendUdp cfg mycounter key iv frame pktData = some out ∧
      (∀ s src env p, getpeer s.list src = some p → p.state = .auth → p.key = key → p.iv = iv →
        HandsOver s.passed (srvStep cfg s (.datagram src out.datagram env)).passed
          (frame ++ cabTrailer mycounter frame) ∧
        ¬HandsOver s.passed (srvStep cfg s (.datagram src out.datagram env)).passed frame) ∧
      (∀ s src now m, src.ip = s.peer.inA.ip → s.peer.state = .auth → s.peer.key = key → s.peer.iv = iv →
        HandsOver s.passed (cliStep cfg s (.datagram src out.datagram now m)).passed
          (frame ++ cabTrailer mycounter frame) ∧
        ¬HandsOver s.passed (cliStep cfg s (.datagram src out.datagram now m)).passed frame) := by
  obtain ⟨out, hout, hlen, hdec⟩ := sendUdp_data henc hmax hcipher
  have htake : (pktData :: out).take cabMaxpkt = pktData :: out :=
    take_of_length_le (by unfold cabMaxpkt; rw [length_cons]; omega)
  have hfirst : ∀ data, firstByte data ((pktData :: out).take cabMaxpkt) = pktData := by
    intro data
    rw [htake, firstByte_cons]
  have hnonempty : ¬(cfg.encryptionDisabled ∧ ((pktData :: out).take cabMaxpkt).length = 0) := by
    rw [henc]
    simp
  refine ⟨_, hout, ?_, ?_⟩
  · intro s src env p hp hauth hkey hiv
    have hplain : dataDecrypt cfg p.key p.iv ((pktData :: out).take cabMaxpkt).tail =
        some (frame ++ cabTrailer mycounter frame) := by
      rw [htake, hkey, hiv]
      exact hdec
    have hstep := srvStep_arrives (.mk src (pktData :: out) env p _ hp hauth (hfirst _) hnonempty hplain)
    exact ⟨⟨_, _, hstep⟩, not_handsOver hstep⟩
  intro s src now m hip hauth hkey hiv
  have hplain : dataDecrypt cfg s.peer.key s.peer.iv ((pktData :: out).take cabMaxpkt).tail =
      some (frame ++ cabTrailer mycounter frame) := by
    rw [htake, hkey, hiv]
    exact hdec
  have hstep := cliStep_arrives (.mk src (pktData :: out) now m _ hip hauth (hfirst _) hnonempty hplain)
  exact ⟨⟨_, _, hstep⟩, not_handsOver hstep⟩

def blowfishOn (pairs : List (List UInt8 × List UInt8)) : Blowfish :=
  { encrypt := fun _ _ src => (pairs.find? (fun x => x.1 = src)).map Prod.snd
    decrypt := fun _ _ src => (pairs.find? (fun x => x.2 = src)).map Prod.fst }

def countKey : List UInt8 := [0, 1, 2, 3, 4, 5, 6, 7, 8, 9, 10, 11, 12, 13, 14, 15]

def countIv : List UInt8 := [0, 1, 2, 3, 4, 5, 6, 7]

def bareFrame : List UInt8 := [255, 255, 255, 255, 255, 255, 2, 0, 0, 0, 0, 1, 8, 0]

/-- `bareFrame` with its trailer for `mycounter` 1, encrypted under `countKey` and `countIv`. -/
def bareCipher : List UInt8 :=
  [126, 95, 42, 250, 187, 151, 210, 130, 214, 223, 8, 116, 125, 72, 2, 85, 248, 250, 183, 104, 255, 129,
   197, 74, 41, 142, 115, 56, 166, 52, 24, 19]

def countCipher : Blowfish :=
  blowfishOn [(bareFrame ++ [1, 0, 0, 0, 0, 0, 0, 0, 217, 165, 106, 239], bareCipher),
    ([5], [44, 239, 185, 242, 152, 121, 103, 198]), ([0], [214, 132, 168, 246, 46, 233, 232, 28])]

def countConfig : CabConfig :=
  { encType := .ssh, keepalives := false, remoteport := 7667, cipher := countCipher }

def peerAddr : CabAddr := ⟨0x0A000001, 7667⟩

def countPeer : CabPeer :=
  { cabPeerZero peerAddr .auth with key := countKey, iv := countIv, plug := true }

def countServer : CabServer := { cabServerInit with list := [countPeer] }

def quietEnv : CabEnv := { now := ⟨0, 0⟩, keyFile := .unopened, urandom := .unopened, response := fun _ => 0 }

theorem frame_never_exact_bare :
    ∃ out, sendUdp countConfig 1 countKey countIv bareFrame pktData = some out ∧
      ¬HandsOver [] (srvStep countConfig countServer (.datagram peerAddr out.datagram quietEnv)).passed
        bareFrame := by
  have hcipher : countConfig.cipher.Inverts countKey countIv (bareFrame ++ cabTrailer 1 bareFrame) :=
    ⟨bareCipher, by decide +kernel, by decide +kernel, by decide +kernel⟩
  obtain ⟨out, hout, hserver, _⟩ := frame_never_exact countConfig rfl countKey countIv 1 bareFrame (by decide)
    hcipher
  exact ⟨out, hout, (hserver countServer peerAddr quietEnv countPeer (by decide) rfl rfl rfl).2⟩

/-- The frame arrives as one of 26 bytes. -/
theorem bare_frame_grows :
    (sendUdp countConfig 1 countKey countIv bareFrame pktData).map UdpOut.datagram =
        some (pktData :: bareCipher) ∧
      ((srvStep countConfig countServer (.datagram peerAddr (pktData :: bareCipher) quietEnv)).passed.map
        (fun x => x.frame.length)) = [26] ∧
      ¬HandsOver [] (srvStep countConfig countServer
        (.datagram peerAddr (pktData :: bareCipher) quietEnv)).passed bareFrame := by
  have hpassed : (srvStep countConfig countServer (.datagram peerAddr (pktData :: bareCipher) quietEnv)).passed =
      [⟨peerAddr, pktData :: bareCipher, bareFrame ++ [1, 0, 0, 0, 0, 0, 0, 0, 217, 165, 106, 239]⟩] := by
    decide +kernel
  refine ⟨by decide +kernel, by rw [hpassed]; decide, ?_⟩
  rintro ⟨src, datagram, h⟩
  rw [hpassed] at h
  have hlen := congrArg (fun x : Passed => x.frame.length) (cons.inj h).1
  cases hlen

/-! ## Replays -/

def trailerCounter (frame : List UInt8) : Nat :=
  ((frame.drop (frame.length - 12)).take 8).foldr (fun b rest => b.toNat + 256 * rest) 0

/-- A frame with a trailer of its own: the checksum matches, the counter is above those accepted from the
peer before, and the datagram is no copy. -/
structure Fresh (before : List Passed) (x : Passed) : Prop where
  trailer : 12 ≤ x.frame.length
  crc : isvalidCrc32 x.frame = true
  counter : ∀ y ∈ before, y.src = x.src → trailerCounter y.frame < trailerCounter x.frame
  once : ∀ y ∈ before, y.src = x.src → y.datagram ≠ x.datagram

/-- Each frame of the history, newest first, was fresh when it was handed over. -/
def ReplayFree : List Passed → Prop
  | [] => True
  | x :: before => Fresh before x ∧ ReplayFree before

/-- Neither side checks the trailer. The server and the client hand over fresh datagrams only exactly in
the runs in which all data that reaches them in `ST_AUTH` and decrypts is fresh when it arrives. -/
theorem replay_free_iff (cfg : CabConfig) :
    (∀ es, (cabServer cfg).Along (cabServer cfg).enabled cabServerInit es →
      ((cabServer cfg).Always (fun s => ReplayFree s.passed) cabServerInit es ↔
        (cabServer cfg).Along (fun s e => ∀ x, SrvArrives cfg s e x → Fresh s.passed x) cabServerInit es)) ∧
    (∀ m now es, (cabClient cfg).Along (cabClient cfg).enabled (cabClientInit cfg m now) es →
      ((cabClient cfg).Always (fun s => ReplayFree s.passed) (cabClientInit cfg m now) es ↔
        (cabClient cfg).Along (fun s e => ∀ x, CliArrives cfg s e x → Fresh s.passed x)
          (cabClientInit cfg m now) es)) := by
  constructor
  · intro es hes
    have hinit : ReplayFree cabServerInit.passed := trivial
    apply Machine.always_iff_along (fun s : CabServer => ReplayFree s.passed) (fun _ h => h) _ _ hinit es hes
    · intro s e hs _ hok
      have hstep : (srvStep cfg s e).passed = s.passed ∨ ∃ x, SrvArrives cfg s e x := srvStep_passed cfg s e
      show ReplayFree (srvStep cfg s e).passed
      rcases hstep with h | ⟨x, hx⟩
      · rw [h]
        exact hs
      rw [srvStep_arrives hx]
      exact ⟨hok x hx, hs⟩
    intro s e _ _ hbad hfree
    apply hbad
    intro x hx
    have hfree' : ReplayFree (srvStep cfg s e).passed := hfree
    rw [srvStep_arrives hx] at hfree'
    exact hfree'.1
  intro m now es hes
  have hinit : ReplayFree (cabClientInit cfg m now).passed := by
    have h : (cabClientInit cfg m now).passed = [] := tryToLogin_passed cfg _ now
    rw [h]
    trivial
  apply Machine.always_iff_along (fun s : CabClient => ReplayFree s.passed) (fun _ h => h) _ _ hinit es hes
  · intro s e hs _ hok
    have hstep : (cliStep cfg s e).passed = s.passed ∨ ∃ x, CliArrives cfg s e x := cliStep_passed cfg s e
    show ReplayFree (cliStep cfg s e).passed
    rcases hstep with h | ⟨x, hx⟩
    · rw [h]
      exact hs
    rw [cliStep_arrives hx]
    exact ⟨hok x hx, hs⟩
  intro s e _ _ hbad hfree
  apply hbad
  intro x hx
  have hfree' : ReplayFree (cliStep cfg s e).passed := hfree
  rw [cliStep_arrives hx] at hfree'
  exact hfree'.1

def countMaterial : KeyMaterial := { key := countKey, iv := countIv, id := [], ip := peerAddr.ip }

def replayedRun : List CliEvent :=
  [.datagram peerAddr [cmdChallenge, 5] ⟨9, 0⟩ none, .datagram peerAddr [cmdAuthOk] ⟨9, 0⟩ none,
    .datagram peerAddr (pktData :: bareCipher) ⟨9, 0⟩ none,
    .datagram peerAddr (pktData :: bareCipher) ⟨9, 0⟩ none]

theorem replay_free_iff_once : (cabClient countConfig).Always (fun s => ReplayFree s.passed)
    (cabClientInit countConfig countMaterial ⟨9, 0⟩) (replayedRun.take 3) := by
  have henabled : (cabClient countConfig).Along (cabClient countConfig).enabled
      (cabClientInit countConfig countMaterial ⟨9, 0⟩) (replayedRun.take 3) := by
    unfold replayedRun
    simp only [List.take, Machine.Along, cabClient]
    decide +kernel
  refine ((replay_free_iff countConfig).2 countMaterial ⟨9, 0⟩ (replayedRun.take 3) henabled).mpr ⟨?_, ?_, ?_, trivial⟩
  · rintro x ⟨_, _, _, _, plain, hip, hauth, -⟩
    exact absurd hauth (by decide +kernel)
  · rintro x ⟨_, _, _, _, plain, hip, hauth, -⟩
    exact absurd hauth (by decide +kernel)
  rintro x ⟨_, _, _, _, plain, hip, hauth, hdata, hlen, hplain⟩
  have hknown : dataDecrypt countConfig (((cabClient countConfig).run
      (cabClientInit countConfig countMaterial ⟨9, 0⟩) (replayedRun.take 2)).peer.key) (((cabClient countConfig).run
      (cabClientInit countConfig countMaterial ⟨9, 0⟩) (replayedRun.take 2)).peer.iv) bareCipher =
      some (bareFrame ++ [1, 0, 0, 0, 0, 0, 0, 0, 217, 165, 106, 239]) := by decide +kernel
  cases hknown.symm.trans hplain
  exact ⟨by decide, by decide +kernel, fun _ hy => absurd hy not_mem_nil, fun _ hy => absurd hy not_mem_nil⟩

/-- The client hands over the second copy too. -/
theorem datagram_replayed :
    ¬(cabClient countConfig).Always (fun s => ReplayFree s.passed)
      (cabClientInit countConfig countMaterial ⟨9, 0⟩) replayedRun := by
  have hpassed : ((cabClient countConfig).run (cabClientInit countConfig countMaterial ⟨9, 0⟩)
      replayedRun).passed =
      replicate 2 ⟨peerAddr, pktData :: bareCipher, bareFrame ++ [1, 0, 0, 0, 0, 0, 0, 0, 217, 165, 106, 239]⟩ := by
    decide +kernel
  intro h
  have hlast := Machine.Always.last h
  rw [hpassed] at hlast
  exact hlast.1.once _ (mem_singleton.mpr rfl) rfl rfl

end Vde
