import Vde.Proofs.CryptcabReplay

/-!
# Authentication at the cryptcab server

A peer should reach `ST_AUTH` by answering the challenge last sent to it, encrypted under the key of
its last login. The server compares with `strncmp`, which stops at a zero byte, on a buffer of which
a short answer fills only the beginning, and the challenge is not sent when `/dev/urandom` cannot
be read. And a frame may be sent for an entry of `peerlist` that was not filled in. A step keeps the rule exactly when
no answer passes the comparison that is not the challenge, and no such entry is used for another peer.
-/

namespace Vde

open List Option

def lastLogin (logins : List (CabAddr × List UInt8 × List UInt8)) (a : CabAddr) :
    Option (List UInt8 × List UInt8) :=
  (logins.find? (fun x => x.1 = a)).map Prod.snd

def lastChallenge (sent : List (CabAddr × List UInt8)) (a : CabAddr) : Option (List UInt8) :=
  (sent.find? (fun x => x.1 = a ∧ x.2.head? = some cmdChallenge)).map (fun x => x.2.tail)

def Authenticated (s : CabServer) (a : CabAddr) : Prop :=
  ∃ p, getpeer s.list a = some p ∧ p.state = .auth

inductive Responds (cfg : CabConfig) (s : CabServer) : SrvEvent → CabPeer → List UInt8 → Mem → Prop
  | mk (src : CabAddr) (bytes : List UInt8) (env : CabEnv) (p : CabPeer) (plain : List UInt8)
      (hp : getpeer s.list src = some p) (hstate : p.state = .challenge)
      (hcmd : firstByte s.data (bytes.take cabMaxpkt) = cmdResponse)
      (hlen : ¬(cfg.encryptionDisabled ∧ (bytes.take cabMaxpkt).length = 0))
      (hplain : dataDecrypt cfg p.key p.iv (bytes.take cabMaxpkt).tail = some plain) (hpos : 0 < plain.length) :
      Responds cfg s (.datagram src bytes env) p plain env.response

/-- The response of the peer `p` that the claim asks for: under the key of the last login it decrypts to
the challenge last sent. -/
def Proves (cfg : CabConfig) (s : CabServer) (e : SrvEvent) (a : CabAddr) : Prop :=
  ∃ bytes env p key iv plain challenge, e = .datagram a bytes env ∧ getpeer s.list a = some p ∧
    p.state = .challenge ∧ firstByte s.data (bytes.take cabMaxpkt) = cmdResponse ∧
    lastLogin s.logins a = some (key, iv) ∧
    dataDecrypt cfg key iv (bytes.take cabMaxpkt).tail = some plain ∧
    lastChallenge s.sent a = some challenge ∧ plain.take 128 = challenge

/-- What a step may do: let a peer in that proves itself, send frames to authenticated peers and accept
data from them. -/
structure AuthStep (cfg : CabConfig) (s : CabServer) (e : SrvEvent) : Prop where
  enters : ∀ a, Authenticated (srvStep cfg s e) a → Authenticated s a ∨ Proves cfg s e a
  frames : ∃ new, (srvStep cfg s e).sent = new ++ s.sent ∧
    ∀ x ∈ new, x.2.head? = some pktData ∨ (∃ left bytes, e = .frame left bytes) → Authenticated s x.1
  data : ∃ new, (srvStep cfg s e).passed = new ++ s.passed ∧ ∀ x ∈ new, Authenticated s x.src

/-- The response is the challenge last sent, or it differs from the stored challenge at a byte that has
no zero byte of the challenge before it. The bytes behind a short response are those that lie in the
buffer. -/
def ResponseOk (cfg : CabConfig) (s : CabServer) (e : SrvEvent) : Prop :=
  ∀ p plain response, Responds cfg s e p plain response →
    lastChallenge s.sent p.inA = some (plain.take 128) ∨
      ∃ i < 128, memcpy response 0 plain i ≠ p.challengeMem i ∧ ∀ j < i, p.challengeMem j ≠ 0

/-- The frame is sent for an entry: the entry is of a peer in `ST_AUTH` with a connection, and the frame with its trailer
fits into the buffers. -/
def FrameGoes (cfg : CabConfig) (s : CabServer) (p : CabPeer) (bytes : List UInt8) : Prop :=
  p.plug = true ∧ bytes ≠ [] ∧ p.state = .auth ∧
    (Vde.sendUdp cfg s.mycounter p.key p.iv (bytes.take cabMaxpkt) pktData).isSome = true

/-- Where nothing was stored in `peerlist` in this turn, no frame is sent for what is there, unless it is a peer in
`ST_AUTH`. -/
def FrameOk (cfg : CabConfig) (s : CabServer) (e : SrvEvent) : Prop :=
  ∀ left bytes, e = .frame left bytes → copyPeers s.list 1 (fun _ => none) (nextPeer s.list.length s.i) = none →
    FrameGoes cfg s left bytes → Authenticated s left.inA

/-! ## strncmp -/

lemma strncmpEq_eq_false_iff (a b : Mem) (i n : Nat) : strncmpEq a b i n = false ↔ ∃ k < n, a (i + k) ≠ b (i + k) ∧
    ∀ j < k, b (i + j) ≠ 0 := by
  induction n generalizing i with
  | zero => simp [strncmpEq]
  | succ n ih =>
    by_cases hi : a i = b i
    · by_cases hz : a i = 0
      · have htrue : strncmpEq a b i (n + 1) = true := by
          simp [strncmpEq, hi, hi ▸ hz]
        rw [htrue]
        constructor
        · intro h
          cases h
        rintro ⟨k, _, hk, hbefore⟩
        cases k with
        | zero => exact absurd hi hk
        | succ k => exact absurd (hi.symm.trans hz) (hbefore 0 (Nat.succ_pos k))
      have hnext : strncmpEq a b i (n + 1) = strncmpEq a b (i + 1) n := by
        simp [strncmpEq, hi, hi ▸ hz]
      rw [hnext, ih]
      constructor
      · rintro ⟨k, hk, hdiff, hbefore⟩
        refine ⟨k + 1, by omega, ?_, ?_⟩
        · rw [show i + (k + 1) = i + 1 + k by omega]
          exact hdiff
        intro j hj
        cases j with
        | zero => exact hi ▸ hz
        | succ j =>
          rw [show i + (j + 1) = i + 1 + j by omega]
          exact hbefore j (by omega)
      rintro ⟨k, hk, hdiff, hbefore⟩
      cases k with
      | zero => exact absurd hi hdiff
      | succ k =>
        refine ⟨k, by omega, ?_, ?_⟩
        · rw [show i + 1 + k = i + (k + 1) by omega]
          exact hdiff
        intro j hj
        rw [show i + 1 + j = i + (j + 1) by omega]
        exact hbefore (j + 1) (by omega)
    · have hfalse : strncmpEq a b i (n + 1) = false := by simp [strncmpEq, hi]
      rw [hfalse]
      exact ⟨fun _ => ⟨0, Nat.succ_pos n, hi, fun j hj => absurd hj (Nat.not_lt_zero j)⟩, fun _ => rfl⟩

/-! ## The invariant -/

/-- Peers have different addresses, and a peer that has a challenge to answer has the key of its last
login. -/
structure AuthInv (s : CabServer) : Prop where
  distinct : DistinctPeers s.list
  key : ∀ a p, getpeer s.list a = some p → p.state = .challenge → lastLogin s.logins a = some (p.key, p.iv)

lemma authInv_init : AuthInv cabServerInit :=
  ⟨nodup_nil, fun a p h => by cases h⟩

lemma AuthInv.store {s s' : CabServer} (h : AuthInv s) {p : CabPeer} (hlist : s'.list = storePeer p s.list)
    (hlogins : s'.logins = s.logins) (hp : p.state ≠ .challenge) : AuthInv s' := by
  constructor
  · unfold DistinctPeers
    rw [hlist, storePeer_inA]
    exact h.distinct
  intro a q hq hstate
  rw [hlist, getpeer_storePeer] at hq
  by_cases ha : p.inA = a
  · rw [if_pos ha] at hq
    obtain ⟨_, _, hpq⟩ := map_eq_some_iff.mp hq
    rw [← hpq] at hstate
    exact absurd hstate hp
  rw [if_neg ha] at hq
  rw [hlogins]
  exact h.key a q hq hstate

variable {s s' : CabServer}

lemma AuthInv.challenged (h : AuthInv s) {q : CabPeer} (hlist : s'.list = storePeer q s.list)
    (hlogins : s'.logins = (q.inA, q.key, q.iv) :: s.logins) : AuthInv s' := by
  constructor
  · unfold DistinctPeers
    rw [hlist, storePeer_inA]
    exact h.distinct
  intro a p hp hstate
  rw [hlist, getpeer_storePeer] at hp
  rw [hlogins]
  by_cases ha : q.inA = a
  · rw [if_pos ha] at hp
    obtain ⟨_, _, hqp⟩ := map_eq_some_iff.mp hp
    rw [← hqp]
    simp [lastLogin, ha]
  rw [if_neg ha] at hp
  have hlast : lastLogin ((q.inA, q.key, q.iv) :: s.logins) a = lastLogin s.logins a := by
    simp [lastLogin, ha]
  rw [hlast]
  exact h.key a p hp hstate

variable {cfg : CabConfig} {p : CabPeer}

lemma AuthInv.login (h : AuthInv s) (hcase : LoginCase cfg s p s') : AuthInv s' := by
  cases hcase with
  | denied q now hq =>
    rw [denyAccess_eq]
    have hclosed : (setExpire { q with state := .closed } expireNow now).state ≠ .challenge := by
      intro hstate
      cases hstate
    exact h.store rfl rfl hclosed
  | challenged q new hq hstate hnew =>
    rw [← hq]
    exact h.challenged rfl rfl

lemma AuthInv.srvReceived (h : AuthInv s) (src : CabAddr) (bytes : List UInt8) (now : Timeval) :
    AuthInv (srvReceived s src bytes now) := by
  constructor
  · unfold DistinctPeers Vde.srvReceived recvDatagramSrv
    have hpop : ((populatePeerlist s.list).map CabPeer.inA).Nodup := by
      rw [populatePeerlist_inA]
      exact h.distinct
    cases hsrc : getpeer (populatePeerlist s.list) src with
    | some p => simpa only [hsrc] using hpop
    | none =>
      simp only [map_cons]
      apply nodup_cons.mpr
      refine ⟨?_, hpop⟩
      intro hmem
      obtain ⟨p, hp, hpa⟩ := mem_map.mp hmem
      have hfound := getpeer_of_mem hpop hp
      rw [hpa] at hfound
      exact absurd (hsrc.symm.trans hfound) (by simp)
  intro a p hp hstate
  rw [getpeer_srvReceived] at hp
  have hold : ∃ q, getpeer s.list a = some q ∧ p = q.populated := by
    by_cases ha : a = src
    · rw [if_pos ha] at hp
      have heq := some.inj hp
      rw [← heq] at hstate ⊢
      rw [ha]
      exact senderOf_state s src now (by rw [hstate]; decide)
    rw [if_neg ha] at hp
    obtain ⟨q, hq, hqp⟩ := map_eq_some_iff.mp hp
    exact ⟨q, hq, hqp.symm⟩
  obtain ⟨q, hq, hpq⟩ := hold
  obtain ⟨b, hb⟩ := q.populated_eq
  rw [hpq] at hstate ⊢
  rw [CabPeer.populated_state] at hstate
  rw [hb]
  exact h.key a q hq hstate

/-! ## Steps -/

lemma rcvResponse_cases (cfg : CabConfig) (s : CabServer) (p : CabPeer) (len : Nat) (env : CabEnv) :
    (rcvResponse cfg s p len env = { s with alive := false }) ∨
    (rcvResponse cfg s p len env = denyAccess cfg s p env.now) ∨
    ∃ plain, ¬(cfg.encryptionDisabled ∧ len = 0) ∧
      dataDecrypt cfg p.key p.iv (readBytes s.data 1 (len - 1)) = some plain ∧ 0 < plain.length ∧
      strncmpEq (memcpy env.response 0 plain) p.challengeMem 0 128 = true ∧
      rcvResponse cfg s p len env = sendAuthOk cfg s { p with state := .auth } env.now := by
  unfold rcvResponse
  by_cases hlen : cfg.encryptionDisabled ∧ len = 0
  · rw [if_pos hlen]
    exact Or.inl rfl
  rw [if_neg hlen]
  cases hplain : dataDecrypt cfg p.key p.iv (readBytes s.data 1 (len - 1)) with
  | none => exact Or.inr (Or.inl rfl)
  | some plain =>
    by_cases heq : 0 < plain.length ∧ strncmpEq (memcpy env.response 0 plain) p.challengeMem 0 128 = true
    · exact Or.inr (Or.inr ⟨plain, hlen, rfl, heq.1, heq.2, if_pos heq⟩)
    · exact Or.inr (Or.inl (if_neg heq))

section

variable (h : AuthInv s)

include h

lemma AuthInv.data (hlist : s'.list = s.list) (hlogins : s'.logins = s.logins) : AuthInv s' := by
  constructor
  · rw [hlist]
    exact h.distinct
  rw [hlist, hlogins]
  exact h.key

lemma AuthInv.rcvData (cfg : CabConfig) (hp : p.state = .auth)
    (len : Nat) (now : Timeval) : AuthInv (rcvData cfg s p len now) := by
  have hstored : AuthInv (s.store (setExpire p cmdKeepalive now)) := by
    have hstate : (setExpire p cmdKeepalive now).state ≠ .challenge := by
      intro hc
      have hc' : p.state = .challenge := hc
      rw [hp] at hc'
      cases hc'
    exact h.store rfl rfl hstate
  unfold Vde.rcvData
  split
  · exact h.data rfl rfl
  simp only
  split
  · exact hstored
  split
  · exact hstored.data rfl rfl
  · exact hstored

lemma AuthInv.sendAuthOk (cfg : CabConfig) (p : CabPeer) (now : Timeval) : AuthInv (sendAuthOk cfg s p now) := by
  rw [sendAuthOk_eq]
  have hstate : (setExpire { p with state := .auth, plug := true } cmdAuthOk now).state ≠ .challenge := by
    intro hc
    cases hc
  exact h.store rfl rfl hstate

lemma AuthInv.denyAccess (cfg : CabConfig) (p : CabPeer) (now : Timeval) :
    AuthInv (denyAccess cfg s p now) := h.login (p := p) (.denied p now rfl)

lemma AuthInv.srvSwitch (cfg : CabConfig) (p : CabPeer) (len : Nat)
    (env : CabEnv) : AuthInv (srvSwitch cfg s p len env) := by
  have hcase := srvSwitch_cases cfg s p len env
  generalize Vde.srvSwitch cfg s p len env = s' at hcase ⊢
  cases hcase with
  | data hp _ => exact h.rcvData cfg hp len env.now
  | keepalive hp _ =>
    have hstate : (setExpire p cmdKeepalive env.now).state ≠ .challenge := by
      intro hc
      have hc' : p.state = .challenge := hc
      rw [hp] at hc'
      cases hc'
    exact h.store rfl rfl hstate
  | login q => exact h.login (rcvLogin_cases cfg s q env)
  | response =>
    rcases rcvResponse_cases cfg s p len env with hr | hr | ⟨plain, _, _, _, _, hr⟩
    · rw [hr]
      exact h.data rfl rfl
    · rw [hr]
      exact h.denyAccess cfg p env.now
    rw [hr]
    exact h.sendAuthOk cfg _ env.now
  | deny => exact h.denyAccess cfg p env.now
  | authOk => exact h.sendAuthOk cfg p env.now

lemma AuthInv.populate (hlist : s'.list = populatePeerlist s.list)
    (hlogins : s'.logins = s.logins) : AuthInv s' := by
  constructor
  · unfold DistinctPeers
    rw [hlist, populatePeerlist_inA]
    exact h.distinct
  intro a p hp hstate
  rw [hlist, getpeer_populate] at hp
  obtain ⟨q, hq, hqp⟩ := map_eq_some_iff.mp hp
  obtain ⟨b, hb⟩ := q.populated_eq
  rw [← hqp] at hstate ⊢
  rw [CabPeer.populated_state] at hstate
  rw [hlogins, hb]
  exact h.key a q hq hstate

end

lemma srvFrame_list (cfg : CabConfig) (s : CabServer) (p : CabPeer) (frame : List UInt8) :
    (srvFrame cfg s p frame).list = s.list ∧ (srvFrame cfg s p frame).logins = s.logins := by
  simp only [srvFrame]
  split
  · split <;> exact ⟨rfl, rfl⟩
  · exact ⟨rfl, rfl⟩

lemma srvStep_frame_list (cfg : CabConfig) (s : CabServer) (left : CabPeer) (bytes : List UInt8) :
    (srvStep cfg s (.frame left bytes)).list = populatePeerlist s.list ∧
    (srvStep cfg s (.frame left bytes)).logins = s.logins := by
  simp only [srvStep]
  split
  · exact srvFrame_list cfg _ _ _
  · exact ⟨rfl, rfl⟩

lemma AuthInv.step {s : CabServer} (h : AuthInv s) (cfg : CabConfig) (e : SrvEvent) :
    AuthInv (srvStep cfg s e) := by
  cases e with
  | datagram src bytes env =>
    rw [srvStep_datagram]
    exact (h.srvReceived src bytes env.now).srvSwitch cfg _ _ env
  | frame left bytes =>
    obtain ⟨hlist, hlogins⟩ := srvStep_frame_list cfg s left bytes
    exact h.populate hlist hlogins
  | timeout now =>
    have hpop : AuthInv { s with list := populatePeerlist s.list } := h.populate rfl rfl
    constructor
    · have hsub := (cleanPeerlist_sublist now (populatePeerlist s.list)).map CabPeer.inA
      exact hpop.distinct.sublist hsub
    intro a p hp hstate
    exact hpop.key a p (getpeer_clean hpop.distinct hp) hstate

/-! ## Who gets in -/

variable {a : CabAddr}

lemma authenticated_store (hlist : s'.list = storePeer p s.list)
    (h : Authenticated s' a) : Authenticated s a ∨ a = p.inA ∧ p.state = .auth := by
  obtain ⟨q, hq, hstate⟩ := h
  rw [hlist, getpeer_storePeer] at hq
  by_cases ha : p.inA = a
  · rw [if_pos ha] at hq
    obtain ⟨_, _, hpq⟩ := map_eq_some_iff.mp hq
    rw [← hpq] at hstate
    exact Or.inr ⟨ha.symm, hstate⟩
  rw [if_neg ha] at hq
  exact Or.inl ⟨q, hq, hstate⟩

lemma authenticated_denied {now : Timeval} (h : Authenticated (denyAccess cfg s p now) a) : Authenticated s a := by
  rw [denyAccess_eq] at h
  rcases authenticated_store rfl h with h | ⟨_, hstate⟩
  · exact h
  · cases hstate

lemma authenticated_login (hcase : LoginCase cfg s p s') (h : Authenticated s' a) : Authenticated s a := by
  cases hcase with
  | denied q now _ => exact authenticated_denied h
  | challenged q new hq hstate hnew =>
    rcases authenticated_store (p := q) (s := s) rfl h with h | ⟨_, hauth⟩
    · exact h
    rw [hstate] at hauth
    cases hauth

lemma rcvData_list (cfg : CabConfig) (s : CabServer) (p : CabPeer) (len : Nat) (now : Timeval) :
    (rcvData cfg s p len now).list = s.list ∨ (rcvData cfg s p len now).list =
    storePeer (setExpire p cmdKeepalive now) s.list := by
  unfold rcvData
  split
  · exact Or.inl rfl
  apply Or.inr
  simp only
  split
  · rfl
  · split <;> rfl

lemma srvSwitch_enters (hp : getpeer s.list p.inA = some p)
    {len : Nat} {env : CabEnv} (h : Authenticated (srvSwitch cfg s p len env) a) : Authenticated s a ∨
    a = p.inA ∧ p.state = .challenge ∧ s.data 0 = cmdResponse ∧ ∃ plain, ¬(cfg.encryptionDisabled ∧ len = 0) ∧
    dataDecrypt cfg p.key p.iv (readBytes s.data 1 (len - 1)) = some plain ∧ 0 < plain.length ∧
    strncmpEq (memcpy env.response 0 plain) p.challengeMem 0 128 = true := by
  have hcase := srvSwitch_cases cfg s p len env
  generalize srvSwitch cfg s p len env = s' at hcase h
  cases hcase with
  | data hauth _ =>
    apply Or.inl
    rcases rcvData_list cfg s p len env.now with hlist | hlist
    · obtain ⟨q, hq, hstate⟩ := h
      exact ⟨q, hlist ▸ hq, hstate⟩
    rcases authenticated_store hlist h with h | ⟨ha, _⟩
    · exact h
    · exact ⟨p, ha ▸ hp, hauth⟩
  | keepalive hauth _ =>
    apply Or.inl
    rcases authenticated_store (p := setExpire p cmdKeepalive env.now) (s := s) rfl h with h | ⟨ha, _⟩
    · exact h
    · exact ⟨p, ha ▸ hp, hauth⟩
  | login q => exact Or.inl (authenticated_login (rcvLogin_cases cfg s q env) h)
  | deny => exact Or.inl (authenticated_denied h)
  | authOk hauth _ =>
    apply Or.inl
    rw [sendAuthOk_eq] at h
    rcases authenticated_store (s := s) rfl h with h | ⟨ha, _⟩
    · exact h
    · exact ⟨p, ha ▸ hp, hauth⟩
  | response hstate hcmd =>
    rcases rcvResponse_cases cfg s p len env with hr | hr | ⟨plain, hlen, hplain, hpos, heq, hr⟩
    · rw [hr] at h
      exact Or.inl h
    · rw [hr] at h
      exact Or.inl (authenticated_denied h)
    rw [hr, sendAuthOk_eq] at h
    rcases authenticated_store (s := s) rfl h with h | ⟨ha, _⟩
    · exact Or.inl h
    · exact Or.inr ⟨ha, hstate, hcmd, plain, hlen, hplain, hpos, heq⟩

lemma authenticated_populate (hlist : s'.list = populatePeerlist s.list)
    (h : Authenticated s' a) : Authenticated s a := by
  obtain ⟨p, hp, hstate⟩ := h
  rw [hlist, getpeer_populate] at hp
  obtain ⟨q, hq, hqp⟩ := map_eq_some_iff.mp hp
  rw [← hqp, CabPeer.populated_state] at hstate
  exact ⟨q, hq, hstate⟩

variable {bytes : List UInt8}

lemma authenticated_received {src : CabAddr} {now : Timeval}
    (h : Authenticated (srvReceived s src bytes now) a) : Authenticated s a := by
  obtain ⟨p, hp, hstate⟩ := h
  rw [getpeer_srvReceived] at hp
  by_cases ha : a = src
  · rw [if_pos ha] at hp
    have hsender := some.inj hp
    rw [← hsender] at hstate
    obtain ⟨q, hq, hqp⟩ := senderOf_state s src now (by rw [hstate]; decide)
    rw [hqp, CabPeer.populated_state] at hstate
    exact ⟨q, ha ▸ hq, hstate⟩
  rw [if_neg ha] at hp
  obtain ⟨q, hq, hqp⟩ := map_eq_some_iff.mp hp
  rw [← hqp, CabPeer.populated_state] at hstate
  exact ⟨q, hq, hstate⟩

lemma srvStep_enters (hInv : AuthInv s) {e : SrvEvent} (h : Authenticated (srvStep cfg s e) a) : Authenticated s a ∨
    ∃ p plain response, Responds cfg s e p plain response ∧ p.inA = a ∧
    strncmpEq (memcpy response 0 plain) p.challengeMem 0 128 = true := by
  cases e with
  | frame left bytes => exact Or.inl (authenticated_populate (srvStep_frame_list cfg s left bytes).1 h)
  | timeout now =>
    have hpop : AuthInv { s with list := populatePeerlist s.list } := hInv.populate rfl rfl
    obtain ⟨p, hp, hstate⟩ := h
    have h' : Authenticated { s with list := populatePeerlist s.list } a :=
      ⟨p, getpeer_clean hpop.distinct hp, hstate⟩
    exact Or.inl (authenticated_populate rfl h')
  | datagram src bytes env =>
    rw [srvStep_datagram] at h
    have hfound : getpeer (srvReceived s src bytes env.now).list (senderOf s src env.now).inA =
        some (senderOf s src env.now) := by
      rw [getpeer_srvReceived, senderOf_inA, if_pos rfl]
    rcases srvSwitch_enters hfound h with h | ⟨ha, hstate, hcmd, plain, hlen, hplain, hpos, heq⟩
    · exact Or.inl (authenticated_received h)
    obtain ⟨p, hp, hsender⟩ := senderOf_state s src env.now (by rw [hstate]; decide)
    obtain ⟨b, hb⟩ := p.populated_eq
    have hpayload : readBytes (srvReceived s src bytes env.now).data 1 ((bytes.take cabMaxpkt).length - 1) =
        (bytes.take cabMaxpkt).tail := readBytes_memcpy_payload s.data _
    rw [hpayload, hsender, hb] at hplain
    rw [hsender, hb] at heq
    rw [hsender, CabPeer.populated_state] at hstate
    rw [senderOf_inA] at ha
    rw [ha]
    exact Or.inr ⟨p, plain, env.response, .mk src bytes env p plain hp hstate hcmd hlen hplain hpos,
      getpeer_inA hp, heq⟩

lemma srvStep_accepts {e : SrvEvent} {plain : List UInt8} {response : Mem} (h : Responds cfg s e p plain response)
    (heq : strncmpEq (memcpy response 0 plain) p.challengeMem 0 128 = true) :
    Authenticated (srvStep cfg s e) p.inA := by
  cases h with
  | mk src bytes env p plain hp hstate hcmd hlen hplain hpos =>
    have hsender := senderOf_known hp env.now
    obtain ⟨b, hb⟩ := p.populated_eq
    have hpayload : readBytes (srvReceived s src bytes env.now).data 1 ((bytes.take cabMaxpkt).length - 1) =
        (bytes.take cabMaxpkt).tail := readBytes_memcpy_payload s.data _
    have hswitch : srvStep cfg s (.datagram src bytes env) =
        sendAuthOk cfg (srvReceived s src bytes env.now)
          { senderOf s src env.now with state := .auth } env.now := by
      rw [srvStep_datagram]
      have hcmd' : (srvReceived s src bytes env.now).data 0 = cmdResponse := hcmd
      have hstate' : (senderOf s src env.now).state = .challenge := by
        rw [hsender, CabPeer.populated_state]
        exact hstate
      unfold srvSwitch
      simp only [CabState.label_inj, hstate', hcmd']
      rw [if_neg (by decide), if_neg (by decide), if_neg (by decide), if_neg (by decide), if_pos (by decide)]
      unfold rcvResponse
      rw [if_neg hlen, hpayload]
      have hplain' : dataDecrypt cfg (senderOf s src env.now).key (senderOf s src env.now).iv
          (bytes.take cabMaxpkt).tail = some plain := by
        rw [hsender, hb]
        exact hplain
      have hmatch : 0 < plain.length ∧
          strncmpEq (memcpy env.response 0 plain) (senderOf s src env.now).challengeMem 0 128 = true := by
        rw [hsender, hb]
        exact ⟨hpos, heq⟩
      simp only [hplain', if_pos hmatch]
    have hfound := getpeer_srvReceived s src bytes env.now src
    rw [if_pos rfl] at hfound
    have haddr : p.inA = src := getpeer_inA hp
    rw [hswitch, sendAuthOk_eq, haddr]
    refine ⟨setExpire { senderOf s src env.now with state := .auth, plug := true } cmdAuthOk env.now, ?_, rfl⟩
    simp only [getpeer_storePeer, hfound]
    exact if_pos (senderOf_inA s src env.now)

/-! ## What is sent and passed -/

def SendsControl (s s' : CabServer) : Prop :=
  ∃ new, s'.sent = new ++ s.sent ∧ ∀ x ∈ new, x.2.head? ≠ some pktData

lemma sendsControl_refl (h : s'.sent = s.sent) : SendsControl s s' :=
  ⟨[], h, fun _ hx => by cases hx⟩

lemma sendsControl_one {cmd : UInt8} {body : List UInt8}
    (h : s'.sent = (a, cmd :: body) :: s.sent) (hcmd : cmd ≠ pktData) : SendsControl s s' := by
  refine ⟨[(a, cmd :: body)], h, ?_⟩
  intro x hx
  rw [mem_singleton.mp hx]
  simpa using hcmd

lemma sendsControl_deny (cfg : CabConfig) (s : CabServer) (p : CabPeer) (now : Timeval) :
    SendsControl s (denyAccess cfg s p now) := by
  rw [denyAccess_eq]
  exact sendsControl_one rfl (by decide)

lemma sendsControl_authOk (cfg : CabConfig) (s : CabServer) (p : CabPeer) (now : Timeval) :
    SendsControl s (sendAuthOk cfg s p now) := by
  rw [sendAuthOk_eq]
  exact sendsControl_one rfl (by decide)

lemma rcvData_sent (cfg : CabConfig) (s : CabServer) (p : CabPeer) (len : Nat) (now : Timeval) :
    (rcvData cfg s p len now).sent = s.sent := by
  unfold rcvData
  split
  · rfl
  simp only
  split
  · rfl
  · split <;> rfl

lemma srvSwitch_sends (cfg : CabConfig) (s : CabServer) (p : CabPeer) (len : Nat) (env : CabEnv) :
    SendsControl s (srvSwitch cfg s p len env) := by
  have hcase := srvSwitch_cases cfg s p len env
  generalize srvSwitch cfg s p len env = s' at hcase ⊢
  cases hcase with
  | data => exact sendsControl_refl (rcvData_sent cfg s p len env.now)
  | keepalive => exact sendsControl_refl rfl
  | login q =>
    have hlogin := rcvLogin_cases cfg s q env
    generalize rcvLogin cfg s q env = s' at hlogin ⊢
    cases hlogin with
    | denied q now _ => exact sendsControl_deny cfg s q now
    | challenged q new _ _ hnew =>
      rcases hnew with hnew | hnew
      · exact sendsControl_refl (by rw [hnew]; rfl)
      · exact sendsControl_one (by rw [hnew]; rfl) (by decide)
  | response =>
    rcases rcvResponse_cases cfg s p len env with hr | hr | ⟨plain, _, _, _, _, hr⟩
    · rw [hr]
      exact sendsControl_refl rfl
    · rw [hr]
      exact sendsControl_deny cfg s p env.now
    rw [hr]
    exact sendsControl_authOk cfg s _ env.now
  | deny => exact sendsControl_deny cfg s p env.now
  | authOk => exact sendsControl_authOk cfg s p env.now

lemma copyPeers_mem {list : List CabPeer} {index k : Nat} {copies : Nat → Option CabPeer}
    (h : copyPeers list index copies k = some p) : p ∈ list ∨ copies k = some p := by
  induction list generalizing index copies with
  | nil => exact .inr h
  | cons iter next ih =>
    rcases ih h with hmem | hcopy
    · exact .inl (mem_cons_of_mem iter hmem)
    by_cases hk : k = index
    · rw [hk, Function.update_self] at hcopy
      exact .inl (some.inj hcopy ▸ mem_cons_self)
    rw [Function.update_of_ne hk] at hcopy
    exact .inr hcopy

variable {left : CabPeer}

lemma srvStep_frame_sent (h : FrameGoes cfg s (s.polledPeer left) bytes) : ∃ datagram,
    (srvStep cfg s (.frame left bytes)).sent = ((s.polledPeer left).inA, datagram) :: s.sent := by
  obtain ⟨hplug, hbytes, hauth, hsend⟩ := h
  obtain ⟨out, hout⟩ := isSome_iff_exists.mp hsend
  refine ⟨out.datagram, ?_⟩
  simp only [srvStep]
  rw [if_pos ⟨hplug, hbytes⟩, srvFrame]
  dsimp only
  rw [if_pos hauth, hout]

lemma srvStep_frame_quiet
    (h : ¬FrameGoes cfg s (s.polledPeer left) bytes) : (srvStep cfg s (.frame left bytes)).sent = s.sent := by
  simp only [srvStep]
  by_cases hplug : (s.polledPeer left).plug = true ∧ bytes ≠ []
  · rw [if_pos hplug, srvFrame]
    dsimp only
    split_ifs with hauth
    · have hnone : Vde.sendUdp cfg s.mycounter (s.polledPeer left).key (s.polledPeer left).iv (bytes.take cabMaxpkt)
          pktData = none := by
        by_contra hsome
        exact h ⟨hplug.1, hplug.2, hauth, isSome_iff_ne_none.mpr hsome⟩
      rw [hnone]
    · rfl
  · rw [if_neg hplug]

/-- An entry that was filled in is a copy of a peer of the list. -/
lemma AuthInv.polled (h : AuthInv s) (hp : copyPeers s.list 1 (fun _ => none) (nextPeer s.list.length s.i) = some p)
    (hauth : p.state = .auth) : s.polledPeer left = p ∧ Authenticated s p.inA := by
  refine ⟨by rw [CabServer.polledPeer, hp, getD_some], p, ?_, hauth⟩
  rcases copyPeers_mem hp with hmem | hcopy
  · exact getpeer_of_mem h.distinct hmem
  · cases hcopy

lemma srvStep_frames_iff (hInv : AuthInv s) (e : SrvEvent) :
    (∃ new, (srvStep cfg s e).sent = new ++ s.sent ∧
      ∀ x ∈ new, x.2.head? = some pktData ∨ (∃ left bytes, e = .frame left bytes) → Authenticated s x.1) ↔
      FrameOk cfg s e := by
  cases e with
  | timeout now =>
    refine ⟨fun _ left bytes he => ?_, fun _ => ⟨[], rfl, fun x hx => absurd hx not_mem_nil⟩⟩
    cases he
  | datagram src bytes env =>
    refine ⟨fun _ left bytes he => ?_, fun _ => ?_⟩
    · cases he
    rw [srvStep_datagram]
    obtain ⟨new, hnew, hctl⟩ := srvSwitch_sends cfg (srvReceived s src bytes env.now) (senderOf s src env.now)
      (bytes.take cabMaxpkt).length env
    refine ⟨new, hnew, ?_⟩
    rintro x hx (hdata | ⟨a, bytes', he⟩)
    · exact absurd hdata (hctl x hx)
    · cases he
  | frame left bytes =>
    constructor
    · rintro ⟨new, hnew, hauth⟩ left' bytes' he hfresh hgoes
      cases he
      have hleft : s.polledPeer left = left := by rw [CabServer.polledPeer, hfresh, getD_none]
      obtain ⟨datagram, hsent⟩ := srvStep_frame_sent (hleft.symm ▸ hgoes)
      rw [hsent, hleft] at hnew
      have hone : new = [(left.inA, datagram)] := (@append_cancel_right _ [(left.inA, datagram)] _ _ hnew).symm
      exact hauth (left.inA, datagram) (hone ▸ mem_singleton_self _) (.inr ⟨left, bytes, rfl⟩)
    intro hok
    by_cases hgoes : FrameGoes cfg s (s.polledPeer left) bytes
    · obtain ⟨datagram, hsent⟩ := srvStep_frame_sent hgoes
      refine ⟨[_], hsent, fun x hx _ => ?_⟩
      rw [mem_singleton.mp hx]
      cases hp : copyPeers s.list 1 (fun _ => none) (nextPeer s.list.length s.i) with
      | none =>
        have hleft : s.polledPeer left = left := by rw [CabServer.polledPeer, hp, getD_none]
        rw [hleft] at hgoes ⊢
        exact hok left bytes rfl hp hgoes
      | some p =>
        have hpeer : s.polledPeer left = p := by rw [CabServer.polledPeer, hp, getD_some]
        rw [hpeer] at hgoes ⊢
        exact (@AuthInv.polled s p left hInv hp hgoes.2.2.1).2
    · exact ⟨[], srvStep_frame_quiet hgoes, fun x hx => absurd hx not_mem_nil⟩

lemma srvStep_data (cfg : CabConfig) (s : CabServer) (e : SrvEvent) :
    ∃ new, (srvStep cfg s e).passed = new ++ s.passed ∧ ∀ x ∈ new, Authenticated s x.src := by
  rcases srvStep_passed cfg s e with h | ⟨x, hx⟩
  · exact ⟨[], h, fun _ hy => by cases hy⟩
  refine ⟨[x], srvStep_arrives hx, ?_⟩
  intro y hy
  rw [mem_singleton.mp hy]
  cases hx with
  | mk src bytes env p plain hp hauth => exact ⟨p, hp, hauth⟩

/-! ## The condition -/

lemma authStep_iff (hInv : AuthInv s) (e : SrvEvent) : AuthStep cfg s e ↔ ResponseOk cfg s e ∧ FrameOk cfg s e := by
  constructor
  · intro h
    refine ⟨fun p plain response hr => ?_, (srvStep_frames_iff hInv e).mp h.frames⟩
    cases hsame : strncmpEq (memcpy response 0 plain) p.challengeMem 0 128 with
    | false =>
      obtain ⟨k, hk, hdiff, hbefore⟩ := (strncmpEq_eq_false_iff _ _ 0 128).mp hsame
      rw [Nat.zero_add] at hdiff
      refine Or.inr ⟨k, hk, hdiff, ?_⟩
      intro j hj
      have hz := hbefore j hj
      rwa [Nat.zero_add] at hz
    | true =>
      apply Or.inl
      have hin := srvStep_accepts hr hsame
      cases hr with
      | mk src bytes env p plain hp hstate hcmd hlen hplain hpos =>
        have haddr : p.inA = src := getpeer_inA hp
        rw [haddr] at hin ⊢
        rcases h.enters src hin with ⟨q, hq, hauth⟩ | hproves
        · rw [hp] at hq
          rw [← some.inj hq, hstate] at hauth
          cases hauth
        obtain ⟨bytes', env', q, key, iv, plain', challenge, he, hq, _, _, hlogin, hplain', hlast, htake⟩ := hproves
        cases he
        rw [hInv.key src p hp hstate] at hlogin
        cases hlogin
        rw [hplain] at hplain'
        rw [hlast, ← htake, some.inj hplain']
  rintro ⟨hok, hframe⟩
  refine ⟨?_, (srvStep_frames_iff hInv e).mpr hframe, srvStep_data cfg s e⟩
  intro a ha
  rcases srvStep_enters hInv ha with h | ⟨p, plain, response, hr, haddr, hsame⟩
  · exact Or.inl h
  apply Or.inr
  rcases hok p plain response hr with hlast | ⟨k, hk, hdiff, hbefore⟩
  · cases hr with
    | mk src bytes env p plain hp hstate hcmd hlen hplain hpos =>
      have hsrc : p.inA = src := getpeer_inA hp
      rw [← haddr, hsrc]
      rw [hsrc] at hlast
      exact ⟨bytes, env, p, p.key, p.iv, plain, _, rfl, hp, hstate, hcmd, hInv.key src p hp hstate, hplain,
        hlast, rfl⟩
  have hfalse : strncmpEq (memcpy response 0 plain) p.challengeMem 0 128 = false := by
    rw [strncmpEq_eq_false_iff]
    refine ⟨k, hk, ?_, ?_⟩
    · rwa [Nat.zero_add]
    intro j hj
    rw [Nat.zero_add]
    exact hbefore j hj
  rw [hsame] at hfalse
  cases hfalse

/-- A run of the server keeps the rule exactly when every response on it is the challenge last sent, or
differs from the stored challenge where `strncmp` looks, and no frame is sent for a peer that is left in `peerlist` from
another turn and is not authenticated. -/
theorem auth_iff_responses (cfg : CabConfig) (es : List SrvEvent) :
    (cabServer cfg).Along (AuthStep cfg) cabServerInit es ↔
    (cabServer cfg).Along (fun s e => ResponseOk cfg s e ∧ FrameOk cfg s e) cabServerInit es := by
  have hall : (cabServer cfg).Along (fun _ _ => True) cabServerInit es := Machine.Along.of_forall (fun _ _ => trivial) _ _
  exact Machine.along_congr AuthInv (fun s e hs _ => hs.step cfg e) (fun s e hs _ => authStep_iff hs e) authInv_init es
    hall

/-- What the system returns to a login, with a challenge that begins with a zero byte. -/
def zeroEnv : CabEnv :=
  { now := ⟨0, 0⟩, keyFile := .read countKey countIv, urandom := .read (0 :: replicate 127 7)
    response := fun _ => 1 }

def zeroLogin : SrvEvent := .datagram peerAddr (cmdLogin :: replicate 16 97) zeroEnv

def zeroResponse : SrvEvent :=
  .datagram peerAddr (cmdResponse :: [214, 132, 168, 246, 46, 233, 232, 28]) zeroEnv

def challengedServer : CabServer := srvStep countConfig cabServerInit zeroLogin

theorem zero_response_accepted :
    ¬(cabServer countConfig).Along (AuthStep countConfig) cabServerInit [zeroLogin, zeroResponse] := by
  rintro ⟨_, h, _⟩
  have hstep : AuthStep countConfig challengedServer zeroResponse := h
  have hbefore : (getpeer challengedServer.list peerAddr).map CabPeer.state = some .challenge := by
    decide +kernel
  have hafter : (getpeer (srvStep countConfig challengedServer zeroResponse).list peerAddr).map CabPeer.state =
      some .auth := by
    decide +kernel
  have hin : Authenticated (srvStep countConfig challengedServer zeroResponse) peerAddr :=
    map_eq_some_iff.mp hafter
  rcases hstep.enters peerAddr hin with ⟨p, hp, hauth⟩ | hproves
  · rw [hp, map_some, hauth] at hbefore
    cases hbefore
  obtain ⟨bytes, env, p, key, iv, plain, challenge, he, _, _, _, hlogin, hplain, hlast, htake⟩ := hproves
  cases he
  have hlogin' : lastLogin challengedServer.logins peerAddr = some (countKey, countIv) := by decide +kernel
  have hlast' : lastChallenge challengedServer.sent peerAddr = some (0 :: replicate 127 7) := by
    decide +kernel
  cases hlogin'.symm.trans hlogin
  have hchallenge := some.inj (hlast'.symm.trans hlast)
  have hdec : dataDecrypt countConfig countKey countIv [214, 132, 168, 246, 46, 233, 232, 28] = some [0] := by
    decide +kernel
  cases hdec.symm.trans hplain
  have hlen := congrArg length (htake.trans hchallenge.symm)
  rw [length_cons, length_replicate] at hlen
  cases hlen

end Vde
