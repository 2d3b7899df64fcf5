import Vde.Cryptcab

/-!
# The steps of vde_cryptcab

The cases of the two `switch` statements, the peers that `getpeer` finds after a step, and what a
call leaves alone. Commands other than `CMD_RESPONSE` travel in clear, so the server's answers are
known exactly.
-/

namespace Vde

open List

lemma CabState.label_inj {a b : CabState} {x y : UInt8} : a.label x = b.label y ↔ a = b ∧ x = y := by
  have hx := x.toNat_lt
  have hy := y.toNat_lt
  constructor
  · intro h
    have hcode : a = b := by
      cases a <;> cases b <;> simp [CabState.label, CabState.code] at h ⊢ <;> omega
    subst hcode
    exact ⟨rfl, UInt8.toNat_inj.mp (Nat.add_left_cancel h)⟩
  rintro ⟨rfl, rfl⟩
  rfl

lemma readBytes_memcpy_zero (mem : Mem) (bytes : List UInt8) :
    readBytes (memcpy mem 0 bytes) 0 bytes.length = bytes :=
  readBytes_memcpy_self mem 0 bytes

lemma readBytes_memcpy_payload (mem : Mem) (bytes : List UInt8) :
    readBytes (memcpy mem 0 bytes) 1 (bytes.length - 1) = bytes.tail := by
  apply ext_getElem (by simp)
  intro i hi ht
  have hlen : i + 1 < bytes.length := by
    rw [length_tail] at ht
    omega
  rw [readBytes_getElem, getElem_tail, show 1 + i = 0 + (i + 1) by omega, memcpy_inside _ _ _ _ hlen]

/-- The bytes that decide which command a datagram is: an empty one leaves the byte of the datagram
before it. -/
def firstByte (data : Mem) (bytes : List UInt8) : UInt8 := memcpy data 0 bytes 0

lemma firstByte_cons (data : Mem) (b : UInt8) (bytes : List UInt8) : firstByte data (b :: bytes) = b := by
  simp [firstByte, memcpy]

/-! ## Commands in clear -/

lemma sendUdp_clear (cfg : CabConfig) (mycounter : UInt64) (key iv data : List UInt8) {flags : UInt8}
    (h : flags ∈ [cmdChallenge, cmdLogin, cmdDeny, cmdAuthOk, cmdKeepalive]) :
    sendUdp cfg mycounter key iv data flags = some ⟨flags :: data.take 1993, mycounter, []⟩ := by
  unfold sendUdp
  rw [if_pos (Or.inr h)]
  rfl

section

variable (cfg : CabConfig) (s : CabServer) (p : CabPeer)

include cfg s p

lemma CabServer.sendUdp_clear (data : List UInt8)
    {flags : UInt8} (h : flags ∈ [cmdChallenge, cmdLogin, cmdDeny, cmdAuthOk, cmdKeepalive]) :
    s.sendUdp cfg p data flags = { s with sent := (p.inA, flags :: data.take 1993) :: s.sent } := by
  unfold CabServer.sendUdp
  rw [Vde.sendUdp_clear cfg _ _ _ _ h]

lemma denyAccess_eq (now : Timeval) :
    denyAccess cfg s p now = { s with
      sent := (p.inA, cmdDeny :: accessDenied) :: s.sent
      list := storePeer (setExpire { p with state := .closed } expireNow now) s.list } := by
  unfold denyAccess
  rw [CabServer.sendUdp_clear cfg s p _ (by decide)]
  rfl

lemma sendAuthOk_eq (now : Timeval) :
    sendAuthOk cfg s p now = { s with
      sent := (p.inA, [cmdAuthOk]) :: s.sent
      list := storePeer (setExpire { p with state := .auth, plug := true } cmdAuthOk now) s.list } := by
  unfold sendAuthOk
  rw [CabServer.sendUdp_clear cfg s p _ (by decide)]
  rfl

lemma sendChallenge_cases (urandom : Urandom) :
    ∃ q new, sendChallenge cfg s p urandom = ({ s with sent := new ++ s.sent }, q) ∧
      (q.state = .challenge ∧ q.inA = p.inA ∧ q.key = p.key ∧ q.iv = p.iv) ∧
      (new = [] ∨ new = [(p.inA, cmdChallenge :: q.challenge.take 1993)]) := by
  have hflags : pktCtl ||| cmdChallenge = cmdChallenge := by decide
  cases urandom with
  | unopened =>
    refine ⟨{ p with state := .challenge }, _, ?_, ⟨rfl, rfl, rfl, rfl⟩, Or.inr rfl⟩
    rw [sendChallenge, hflags, CabServer.sendUdp_clear cfg s p _ (by decide)]
    rfl
  | unread => exact ⟨_, [], rfl, ⟨rfl, rfl, rfl, rfl⟩, Or.inl rfl⟩
  | read bytes =>
    refine ⟨{ p with challenge := fill p.challenge bytes, state := .challenge }, _, ?_,
      ⟨rfl, rfl, rfl, rfl⟩, Or.inr rfl⟩
    rw [sendChallenge, hflags, CabServer.sendUdp_clear cfg s _ _ (by decide)]
    rfl

end

inductive LoginCase (cfg : CabConfig) (s : CabServer) (p : CabPeer) : CabServer → Prop
  | denied (q : CabPeer) (now : Timeval) (hq : q.inA = p.inA) : LoginCase cfg s p (denyAccess cfg s q now)
  | challenged (q : CabPeer) (new : List (CabAddr × List UInt8)) (hq : q.inA = p.inA)
      (hstate : q.state = .challenge)
      (hnew : new = [] ∨ new = [(p.inA, cmdChallenge :: q.challenge.take 1993)]) :
      LoginCase cfg s p { s with
        logins := (p.inA, q.key, q.iv) :: s.logins
        sent := new ++ s.sent
        list := storePeer q s.list }

lemma rcvLogin_cases (cfg : CabConfig) (s : CabServer) (p : CabPeer) (env : CabEnv) :
    LoginCase cfg s p (rcvLogin cfg s p env) := by
  unfold rcvLogin
  cases env.keyFile with
  | unopened => exact .denied p env.now rfl
  | noKey => exact .denied p env.now rfl
  | noIv key => exact .denied { p with key := fill p.key key } env.now rfl
  | read key iv =>
    obtain ⟨q, new, hq, ⟨hstate, haddr, hkey, hiv⟩, hnew⟩ := sendChallenge_cases cfg
      { s with logins := (p.inA, fill p.key key, fill p.iv iv) :: s.logins }
      { p with key := fill p.key key, iv := fill p.iv iv, id := readBytes s.data 1 16 } env.urandom
    have h : LoginCase cfg s p _ := .challenged (setExpire q cmdChallenge env.now) new haddr hstate hnew
    have hkey' : (setExpire q cmdChallenge env.now).key = fill p.key key := hkey
    have hiv' : (setExpire q cmdChallenge env.now).iv = fill p.iv iv := hiv
    rw [hkey', hiv'] at h
    simp only [hq]
    exact h

inductive SrvCase (cfg : CabConfig) (s : CabServer) (p : CabPeer) (len : Nat) (env : CabEnv) :
    CabServer → Prop
  | data (h : p.state = .auth) (hb : s.data 0 = pktData) : SrvCase cfg s p len env (rcvData cfg s p len env.now)
  | keepalive (h : p.state = .auth) (hb : s.data 0 = cmdKeepalive) :
      SrvCase cfg s p len env (s.store (setExpire p cmdKeepalive env.now))
  | login (q : CabPeer) (hq : q.inA = p.inA) (hb : s.data 0 = cmdLogin) :
      SrvCase cfg s p len env (rcvLogin cfg s q env)
  | response (h : p.state = .challenge) (hb : s.data 0 = cmdResponse) :
      SrvCase cfg s p len env (rcvResponse cfg s p len env)
  | deny (h : p.state ≠ .auth) : SrvCase cfg s p len env (denyAccess cfg s p env.now)
  | authOk (h : p.state = .auth) (hb : s.data 0 ≠ pktData) : SrvCase cfg s p len env (sendAuthOk cfg s p env.now)

lemma srvSwitch_cases (cfg : CabConfig) (s : CabServer) (p : CabPeer) (len : Nat) (env : CabEnv) :
    SrvCase cfg s p len env (srvSwitch cfg s p len env) := by
  unfold srvSwitch
  simp only [CabState.label_inj]
  by_cases hdata : p.state = .auth ∧ s.data 0 = pktData
  · rw [if_pos hdata]
    exact .data hdata.1 hdata.2
  rw [if_neg hdata]
  by_cases hkeep : p.state = .auth ∧ s.data 0 = cmdKeepalive
  · rw [if_pos hkeep]
    exact .keepalive hkeep.1 hkeep.2
  rw [if_neg hkeep]
  by_cases hagain : p.state = .auth ∧ s.data 0 = cmdLogin
  · rw [if_pos hagain]
    exact .login _ rfl hagain.2
  rw [if_neg hagain]
  by_cases hlogin : p.state = .closed ∧ s.data 0 = cmdLogin
  · rw [if_pos hlogin]
    exact .login _ rfl hlogin.2
  rw [if_neg hlogin]
  by_cases hresp : p.state = .challenge ∧ s.data 0 = cmdResponse
  · rw [if_pos hresp]
    exact .response hresp.1 hresp.2
  rw [if_neg hresp]
  by_cases hauth : p.state ≠ .auth
  · rw [if_pos hauth]
    exact .deny hauth
  rw [if_neg hauth]
  have hstate : p.state = .auth := not_not.mp hauth
  exact .authOk hstate (fun hb => hdata ⟨hstate, hb⟩)

variable {p : CabPeer}

lemma srvSwitch_data {cfg : CabConfig} {s : CabServer} {len : Nat} {env : CabEnv}
    (h : p.state = .auth) (hb : s.data 0 = pktData) : srvSwitch cfg s p len env = rcvData cfg s p len env.now := by
  unfold srvSwitch
  simp only [CabState.label_inj]
  rw [if_pos ⟨h, hb⟩]

/-! ## The list of peers -/

variable {list : List CabPeer} {a : CabAddr}

lemma getpeer_inA (h : getpeer list a = some p) : p.inA = a := by
  simpa using find?_some h

lemma getpeer_mem (h : getpeer list a = some p) : p ∈ list :=
  mem_of_find?_eq_some h

lemma getpeer_cons (p : CabPeer) (list : List CabPeer) (a : CabAddr) :
    getpeer (p :: list) a = if p.inA = a then some p else getpeer list a := by
  by_cases h : p.inA = a
  · simp [getpeer, h]
  · simp [getpeer, h]

lemma getpeer_storePeer (p : CabPeer) (list : List CabPeer) (a : CabAddr) : getpeer (storePeer p list) a =
    if p.inA = a then (getpeer list a).map (fun _ => p) else getpeer list a := by
  induction list with
  | nil => simp [storePeer, getpeer]
  | cons q list ih =>
    rw [storePeer]
    by_cases hq : q.inA = p.inA
    · rw [if_pos hq, getpeer_cons, getpeer_cons, hq]
      by_cases ha : p.inA = a
      · simp [ha]
      · simp [ha]
    rw [if_neg hq, getpeer_cons, getpeer_cons, ih]
    by_cases ha : p.inA = a
    · simp [ha, show q.inA ≠ a from fun h => hq (h.trans ha.symm)]
    · simp [ha]

def CabPeer.populated (p : CabPeer) : CabPeer :=
  if p.plug = false ∧ p.state = .auth then { p with plug := true } else p

lemma CabPeer.populated_eq (p : CabPeer) : ∃ b, p.populated = { p with plug := b } := by
  unfold CabPeer.populated
  by_cases h : p.plug = false ∧ p.state = .auth
  · rw [if_pos h]
    exact ⟨true, rfl⟩
  rw [if_neg h]
  exact ⟨p.plug, rfl⟩

@[simp] lemma CabPeer.populated_inA (p : CabPeer) : p.populated.inA = p.inA := by
  obtain ⟨b, h⟩ := p.populated_eq
  rw [h]

@[simp] lemma CabPeer.populated_state (p : CabPeer) : p.populated.state = p.state := by
  obtain ⟨b, h⟩ := p.populated_eq
  rw [h]

lemma CabPeer.populated_plug (h : p.state = .auth) : p.populated.plug = true := by
  unfold CabPeer.populated
  by_cases hplug : p.plug = false
  · rw [if_pos ⟨hplug, h⟩]
  rw [if_neg (fun hp => hplug hp.1)]
  simpa using hplug

lemma getpeer_populate (list : List CabPeer) (a : CabAddr) :
    getpeer (populatePeerlist list) a = (getpeer list a).map CabPeer.populated := by
  induction list with
  | nil => rfl
  | cons p list ih =>
    have hcons : populatePeerlist (p :: list) = p.populated :: populatePeerlist list := rfl
    rw [hcons, getpeer_cons, getpeer_cons, ih, CabPeer.populated_inA]
    by_cases h : p.inA = a
    · simp [h]
    · simp [h]

def DistinctPeers (list : List CabPeer) : Prop := (list.map CabPeer.inA).Nodup

lemma storePeer_inA (p : CabPeer) (list : List CabPeer) :
    (storePeer p list).map CabPeer.inA = list.map CabPeer.inA := by
  induction list with
  | nil => rfl
  | cons q list ih =>
    rw [storePeer]
    by_cases hq : q.inA = p.inA
    · rw [if_pos hq, map_cons, map_cons, hq]
    · rw [if_neg hq, map_cons, map_cons, ih]

lemma populatePeerlist_inA (list : List CabPeer) :
    (populatePeerlist list).map CabPeer.inA = list.map CabPeer.inA := by
  unfold populatePeerlist
  rw [map_map]
  apply map_congr_left
  intro p _
  exact p.populated_inA

lemma cleanPeerlist_sublist (now : Timeval) (list : List CabPeer) : (cleanPeerlist now list).Sublist list := by
  induction list with
  | nil => exact Sublist.refl _
  | cons p list ih =>
    rw [cleanPeerlist]
    by_cases h : now.after p.expire = true
    · rw [if_pos h]
      exact sublist_cons_self p list
    rw [if_neg h]
    exact ih.cons_cons p

lemma getpeer_of_mem (hd : DistinctPeers list) (hp : p ∈ list) : getpeer list p.inA = some p := by
  induction list with
  | nil => cases hp
  | cons q list ih =>
    obtain ⟨hq, hrest⟩ := nodup_cons.mp hd
    rw [getpeer_cons]
    rcases mem_cons.mp hp with rfl | hp
    · rw [if_pos rfl]
    have hne : q.inA ≠ p.inA := by
      intro h
      apply hq
      rw [h]
      exact mem_map_of_mem hp
    rw [if_neg hne]
    exact ih hrest hp

lemma getpeer_clean (hd : DistinctPeers list) {now : Timeval}
    (h : getpeer (cleanPeerlist now list) a = some p) : getpeer list a = some p := by
  have hmem := (cleanPeerlist_sublist now list).subset (getpeer_mem h)
  rw [← getpeer_inA h]
  exact getpeer_of_mem hd hmem

def srvReceived (s : CabServer) (src : CabAddr) (bytes : List UInt8) (now : Timeval) : CabServer :=
  recvDatagramSrv { s with list := populatePeerlist s.list } src (bytes.take cabMaxpkt) now

def senderOf (s : CabServer) (src : CabAddr) (now : Timeval) : CabPeer :=
  ((getpeer s.list src).map CabPeer.populated).getD (setExpire (cabPeerZero src .closed) cmdLogin now)

lemma getpeer_srvReceived (s : CabServer) (src : CabAddr) (bytes : List UInt8) (now : Timeval) (a : CabAddr) :
    getpeer (srvReceived s src bytes now).list a = if a =
    src then some (senderOf s src now) else (getpeer s.list a).map CabPeer.populated := by
  unfold srvReceived recvDatagramSrv senderOf
  simp only [getpeer_populate]
  cases hsrc : getpeer s.list src with
  | some p =>
    simp only [Option.map_some, getpeer_populate]
    by_cases ha : a = src
    · rw [if_pos ha, ha, hsrc]
      rfl
    · rw [if_neg ha]
  | none =>
    simp only [Option.map_none, getpeer_cons, getpeer_populate, Option.getD_none]
    by_cases ha : a = src
    · have heq : (setExpire (cabPeerZero src .closed) cmdLogin now).inA = src := rfl
      rw [if_pos ha, ha, if_pos heq]
    rw [if_neg ha]
    have hne : (setExpire (cabPeerZero src .closed) cmdLogin now).inA ≠ a := fun h => ha h.symm
    rw [if_neg hne]

lemma srvStep_datagram (cfg : CabConfig) (s : CabServer) (src : CabAddr) (bytes : List UInt8) (env : CabEnv) :
    srvStep cfg s (.datagram src bytes env) =
    srvSwitch cfg (srvReceived s src bytes env.now) (senderOf s src env.now) (bytes.take cabMaxpkt).length env := by
  have h := getpeer_srvReceived s src bytes env.now src
  rw [if_pos rfl] at h
  unfold srvReceived at h
  simp only [srvStep, h]
  rfl

lemma senderOf_inA (s : CabServer) (src : CabAddr) (now : Timeval) : (senderOf s src now).inA = src := by
  have h := getpeer_srvReceived s src [] now src
  rw [if_pos rfl] at h
  exact getpeer_inA h

lemma senderOf_known {s : CabServer} {src : CabAddr} (h : getpeer s.list src = some p)
    (now : Timeval) : senderOf s src now = p.populated := by
  unfold senderOf
  rw [h]
  rfl

lemma senderOf_state (s : CabServer) (src : CabAddr) (now : Timeval) (h : (senderOf s src now).state ≠ .closed) :
    ∃ p, getpeer s.list src = some p ∧ senderOf s src now = p.populated := by
  cases hp : getpeer s.list src with
  | some p => exact ⟨p, rfl, senderOf_known hp now⟩
  | none =>
    unfold senderOf at h
    rw [hp] at h
    exact absurd rfl h

end Vde
