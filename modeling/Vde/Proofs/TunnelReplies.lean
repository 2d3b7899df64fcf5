import Vde.Proofs.DnsPackets
import Vde.Proofs.DnsTexts
import Vde.Proofs.Tunnel

/-!
# Replies through the tunnel

The server sends a frame in as many answers as the names of the queries make necessary, and begins
the next one when it is done. At most one frame is under way, so the client has at most one item.
A header keeps twelve bits of the number of the frame, and the client drops fragments with the
number zero: all goes well as long as no frame gets a multiple of 4096.
-/

namespace Vde

open List

structure SentSo (item : NstxSenditem) (ps : List (List UInt8)) : Prop where
  seq : item.seq = ps.length
  offset : item.offset = ps.flatten.length
  data : ps.flatten = item.data.take item.offset
  large : ps.length * 222 ≤ item.offset
  more : ps ≠ [] → item.offset < item.data.length

/-- The first frame of the list is under way and the client has what was sent of it; the others
are not begun. -/
def UnderWay (items : List NstxItem) : List NstxSenditem → Prop
  | [] => items = []
  | item :: next => (∃ ps t, SentSo item ps ∧
      items = if ps = [] then [] else [openItem (item.id % 4096) t ps]) ∧
    ∀ it ∈ next, it.offset = 0 ∧ it.seq = 0

/-- What has come through and what is still to be sent make up the frames. -/
structure ReplyInv (s : ReplyRun) : Prop where
  frames : s.delivered ++ s.server.sendlist.map NstxSenditem.data = s.queued
  numbers : ∀ it ∈ s.server.sendlist, it.id % 4096 ≠ 0
  sizes : ∀ it ∈ s.server.sendlist, it.data.length ≤ maxpkt
  way : UnderWay s.items s.server.sendlist

variable {name : List UInt8}

lemma replySpace_ge (suflen id : Nat) (h : name.length ≤ 255) : 226 ≤ replySpace suflen id name := by
  have hsize : dnsGetpktsize (dnsAddquery (dnsSettype (dnsSetid dnsAlloc id) .response) name) =
      name.length + 17 := by
    simp [dnsGetpktsize, dnsAddquery, dnsSettype, dnsSetid, dnsAlloc]
    omega
  rw [replySpace, dnsGetfreespace, hsize]
  have hmax : dnsMaxpkt = 512 := rfl
  rw [hmax]
  dsimp only
  split
  · omega
  · split <;> omega

lemma toBytes_id (h : Nstxhdr) : { h with id := h.id % 4096 }.toBytes = h.toBytes := by
  have hlow : h.id % 4096 % 256 = h.id % 256 := by omega
  have hhigh : h.id % 4096 / 256 % 16 = h.id / 256 % 16 := by omega
  simp only [Nstxhdr.toBytes, hlow, hhigh]

variable {id : Nat} {ps : List (List UInt8)}

lemma withItem_underWay {t : Nat} {items : List NstxItem}
    (h : items = if ps = [] then [] else [openItem id t ps]) : ∃ t', withItem items id = [openItem id t' ps] := by
  by_cases hps : ps = []
  · rw [if_pos hps] at h
    subst h hps
    exact ⟨0, rfl⟩
  rw [if_neg hps] at h
  subst h
  refine ⟨t, ?_⟩
  rw [withItem, getItemById_cons, if_pos (openItem_id id t ps)]
  rfl

lemma handle_underWay (s : ReplyRun) {t : Nat}
    (hitems : s.items = if ps = [] then [] else [openItem id t ps]) (hid : 0 < id) (hid' : id < 4096)
    (hlt : ps.length < 16) {h : Nstxhdr} {last : Prop} [Decidable last] (hn : IsNext h id ps.length last)
    (p : List UInt8) (now check : Nat) (hkeep : Survives now check) :
    s.handle (h.toBytes ++ p) now check =
      if last then { s with items := [], delivered := s.delivered ++ [(ps ++ [p]).flatten] }
      else { s with items := [openItem id (now % 4294967296) (ps ++ [p])] } := by
  obtain ⟨t', hwith⟩ := withItem_underWay hitems
  have hawaits : Awaits s.items id ps := by
    refine ⟨t', ?_⟩
    rw [hwith, getItemById_cons, if_pos (openItem_id id t' ps)]
  rw [ReplyRun.handle, handlepacket_next hawaits hid hid' hlt hn, hwith]
  by_cases hl : last
  · simp [hl, unlinkItem, openItem, checkTimeouts]
  have hstay : checkTimeouts [openItem id (now % 4294967296) (ps ++ [p])] check =
      [openItem id (now % 4294967296) (ps ++ [p])] := by
    rw [checkTimeouts, filter_cons, if_pos]
    · rfl
    · simpa [openItem, Survives] using hkeep
  rw [if_neg hl, if_neg hl, storeItem, openItem_id, openItem_id, if_pos rfl]
  dsimp only
  rw [hstay]
  simp

def answerHeader (item : NstxSenditem) (last : Prop) [Decidable last] : Nstxhdr :=
  { magic := nstxMagic, seq := item.seq, chan := 0, id := item.id % 4096
    flags := if last then nstxLF else 0 }

lemma answerHeader_next (item : NstxSenditem) (last : Prop) [Decidable last] :
    IsNext (answerHeader item last) (item.id % 4096) item.seq last where
  magic := show nstxMagic < 256 by decide
  chan := show 0 < 16 by decide
  id_eq := rfl
  seq := rfl
  final hl := if_pos hl
  open' hl := if_neg hl

variable {item : NstxSenditem}

lemma dequeueSenditem_cons {next : List NstxSenditem} {len : Int}
    (hlen : 4 ≤ len) (hoff : item.offset ≤ item.data.length) :
    dequeueSenditem ⟨item :: next, id⟩ len =
      if ((item.data.length - item.offset : Nat) : Int) ≤ len - 4 then
        some ((answerHeader item True).toBytes ++ item.data.drop item.offset, ⟨next, id⟩)
      else some ((answerHeader item False).toBytes ++ (item.data.drop item.offset).take (len - 4).toNat,
        ⟨{ item with seq := item.seq + 1, offset := item.offset + (len - 4).toNat } :: next, id⟩) := by
  have hcast : (item.data.length : Int) - item.offset = ((item.data.length - item.offset : Nat) : Int) := by
    omega
  have hopen : (answerHeader item False).toBytes =
      (Nstxhdr.mk nstxMagic item.seq 0 item.id 0).toBytes := toBytes_id ⟨nstxMagic, item.seq, 0, item.id, 0⟩
  have hfinal : (answerHeader item True).toBytes =
      (Nstxhdr.mk nstxMagic item.seq 0 item.id nstxLF).toBytes :=
    toBytes_id ⟨nstxMagic, item.seq, 0, item.id, nstxLF⟩
  rw [dequeueSenditem, hopen, hfinal]
  dsimp only
  rw [hcast]
  by_cases hlast : ((item.data.length - item.offset : Nat) : Int) ≤ len - 4
  · rw [if_pos hlast]
    have hdlen : (if ((item.data.length - item.offset : Nat) : Int) < len - 4 then
        ((item.data.length - item.offset : Nat) : Int) else len - 4) =
        (item.data.length - item.offset : Nat) := by
      split <;> omega
    rw [hdlen, if_neg (by omega), Int.toNat_natCast, if_pos (by omega), take_of_length_le]
    rw [length_drop]
  · rw [if_neg hlast, if_neg (by omega), if_neg (by omega), if_neg (by omega)]

def unsent (s : NsServer) : Nat :=
  (s.sendlist.map (fun it => it.data.length - it.offset + 1)).sum

/-- The client has handed on the frames in order, each once, up to those still in the list; and an
answer to a query with a legal name always sends something. -/
structure ReplyOk (suflen : Nat) (s : ReplyRun) : Prop where
  frames : s.delivered ++ s.server.sendlist.map NstxSenditem.data = s.queued
  progress : s.server.sendlist ≠ [] → ∀ id name, name.length ≤ 255 → ∃ answer server,
    dequeueSenditem s.server (replySpace suflen id name) = some (answer, server) ∧
      unsent server < unsent s.server

/-- No frame gets a multiple of 4096 as its number, and the two clock readings made for a fragment
are not so far apart that its own item times out. -/
def ReplyStepOk (s : ReplyRun) : ReplyEvent → Prop
  | .queue _ => (s.server.id + 1) % 4096 ≠ 0
  | .answer _ _ now check => Survives now check
  | .timeout _ _ => True

lemma SentSo.offset_le (h : SentSo item ps) : item.offset ≤ item.data.length := by
  by_cases hps : ps = []
  · have hoff := h.offset
    rw [hps] at hoff
    simp only [flatten_nil, length_nil] at hoff
    omega
  · exact Nat.le_of_lt (h.more hps)

variable {s : ReplyRun}

lemma ReplyInv.ok (h : ReplyInv s) (suflen : Nat) : ReplyOk suflen s := by
  refine ⟨h.frames, ?_⟩
  intro hne id name hname
  obtain ⟨⟨list, num⟩, items, queued, delivered⟩ := s
  have hspace := replySpace_ge suflen id hname
  cases list with
  | nil => exact absurd rfl hne
  | cons item next =>
    obtain ⟨⟨ps, t, hsent, -⟩, -⟩ := h.way
    dsimp only
    rw [dequeueSenditem_cons (by omega) hsent.offset_le]
    split
    · refine ⟨_, _, rfl, ?_⟩
      simp only [unsent, map_cons, sum_cons]
      omega
    refine ⟨_, _, rfl, ?_⟩
    simp only [unsent, map_cons, sum_cons]
    omega

lemma sentSo_nil (item : NstxSenditem) (hoff : item.offset = 0) (hseq : item.seq = 0) : SentSo item [] where
  seq := hseq
  offset := hoff
  data := by rw [hoff]; rfl
  large := by simp
  more h := absurd rfl h

lemma underWay_nil {next : List NstxSenditem} (h : ∀ it ∈ next, it.offset = 0 ∧ it.seq = 0) : UnderWay [] next := by
  cases next with
  | nil => rfl
  | cons item next =>
    obtain ⟨hoff, hseq⟩ := h item (by simp)
    refine ⟨⟨[], 0, sentSo_nil item hoff hseq, rfl⟩, ?_⟩
    intro it hit
    exact h it (mem_cons_of_mem _ hit)

lemma replyInv_queue (h : ReplyInv s) (suflen : Nat) {frame : List UInt8} (hsize : frame.length ≤ maxpkt)
    (hnum : (s.server.id + 1) % 4096 ≠ 0) : ReplyInv (replyStep suflen s (.queue frame)) := by
  obtain ⟨⟨list, num⟩, items, queued, delivered⟩ := s
  simp only [replyStep, queueSenditem]
  constructor
  · have hframes := h.frames
    dsimp only at hframes ⊢
    rw [map_append, ← append_assoc, hframes]
    rfl
  · intro it hit
    rw [mem_append, mem_singleton] at hit
    rcases hit with hit | rfl
    · exact h.numbers it hit
    · exact hnum
  · intro it hit
    rw [mem_append, mem_singleton] at hit
    rcases hit with hit | rfl
    · exact h.sizes it hit
    · exact hsize
  · have hway := h.way
    cases list with
    | nil =>
      have hitems : items = [] := hway
      subst hitems
      exact underWay_nil (by simp)
    | cons item next =>
      refine ⟨hway.1, ?_⟩
      intro it hit
      rcases mem_append.mp hit with hit | hit
      · exact hway.2 it hit
      rw [mem_singleton.mp hit]
      exact ⟨rfl, rfl⟩

lemma SentSo.full (h : SentSo item ps) {n : Nat}
    (hn : 222 ≤ n) (hmore : item.offset + n < item.data.length) :
    SentSo { item with seq := item.seq + 1, offset := item.offset + n }
      (ps ++ [(item.data.drop item.offset).take n]) := by
  have hlen : ((item.data.drop item.offset).take n).length = n := by
    rw [length_take, length_drop]
    omega
  have hflat : (ps ++ [(item.data.drop item.offset).take n]).flatten =
      ps.flatten ++ (item.data.drop item.offset).take n := by simp
  have hlarge := h.large
  constructor
  · rw [length_append, length_singleton, ← h.seq]
  · rw [hflat, length_append, hlen, ← h.offset]
  · rw [hflat, h.data, take_add]
  · rw [length_append, length_singleton]
    dsimp only
    omega
  · intro _
    exact hmore

lemma replyInv_answer (h : ReplyInv s) (suflen id : Nat) (hname : name.length ≤ 255) {now check : Nat}
    (hkeep : Survives now check) : ReplyInv (replyStep suflen s (.answer id name now check)) := by
  obtain ⟨⟨list, num⟩, items, queued, delivered⟩ := s
  have hspace := replySpace_ge suflen id hname
  rw [replyStep]
  dsimp only
  generalize replySpace suflen id name = len at hspace
  cases list with
  | nil => exact h
  | cons item next =>
    obtain ⟨⟨ps, t, hsent, hitems⟩, hnext⟩ := h.way
    have hnum : 0 < item.id % 4096 := Nat.pos_of_ne_zero (h.numbers item (by simp))
    have hnum' : item.id % 4096 < 4096 := Nat.mod_lt _ (by decide)
    have hframes := h.frames
    have hfew : ps.length < 16 := by
      have hlarge := hsent.large
      have hoff := hsent.offset_le
      have hsize : item.data.length ≤ 2000 := h.sizes item (by simp)
      omega
    rw [dequeueSenditem_cons (by omega) hsent.offset_le]
    by_cases hlast : ((item.data.length - item.offset : Nat) : Int) ≤ len - 4
    · rw [if_pos hlast]
      dsimp only
      have hhdr := answerHeader_next item True
      rw [hsent.seq] at hhdr
      have hwhole : (ps ++ [item.data.drop item.offset]).flatten = item.data := by
        simp [hsent.data]
      rw [handle_underWay ⟨⟨next, num⟩, items, queued, delivered⟩ hitems hnum hnum' hfew hhdr _ now check
        hkeep, if_pos trivial, hwhole]
      constructor
      · simpa using hframes
      · exact fun it hit => h.numbers it (mem_cons_of_mem _ hit)
      · exact fun it hit => h.sizes it (mem_cons_of_mem _ hit)
      · exact underWay_nil hnext
    rw [if_neg hlast]
    dsimp only
    have hhdr := answerHeader_next item False
    rw [hsent.seq] at hhdr
    rw [handle_underWay ⟨⟨{ item with seq := item.seq + 1, offset := item.offset + (len - 4).toNat } :: next,
      num⟩, items, queued, delivered⟩ hitems hnum hnum' hfew hhdr _ now check hkeep, if_neg not_false]
    constructor
    · exact hframes
    · intro it hit
      rcases mem_cons.mp hit with rfl | hit
      · exact h.numbers item (by simp)
      · exact h.numbers it (mem_cons_of_mem _ hit)
    · intro it hit
      rcases mem_cons.mp hit with rfl | hit
      · exact h.sizes item (by simp)
      · exact h.sizes it (mem_cons_of_mem _ hit)
    · refine ⟨⟨_, now % 4294967296, hsent.full (by omega) (by omega), ?_⟩, hnext⟩
      simp

lemma replyInv_timeout (h : ReplyInv s) (suflen now check : Nat) :
    ReplyInv (replyStep suflen s (.timeout now check)) := by
  have hdrop : nstxHandlepacket s.items timeoutAnswer now check = (s.items, none) := by
    rw [nstxHandlepacket, if_neg (by decide)]
    exact if_pos (by decide)
  have hsame : replyStep suflen s (.timeout now check) = s := by
    rw [replyStep, ReplyRun.handle, hdrop]
    simp
  rw [hsame]
  exact h

lemma replyInv_step (h : ReplyInv s) (suflen : Nat) {e : ReplyEvent}
    (he : (replyMachine suflen).enabled s e ∧ ReplyStepOk s e) : ReplyInv ((replyMachine suflen).step s e) := by
  obtain ⟨hen, hok⟩ := he
  cases e with
  | queue frame => exact replyInv_queue h suflen hen hok
  | answer id name now check => exact replyInv_answer h suflen id hen hok
  | timeout now check => exact replyInv_timeout h suflen now check

lemma replyStart_inv : ReplyInv replyStart where
  frames := rfl
  numbers _ h := absurd h not_mem_nil
  sizes _ h := absurd h not_mem_nil
  way := rfl

/-- In every run in which no frame gets a multiple of 4096 as its number, and no item is timed out
by the call that has just touched it, the client hands on every frame once and in order. -/
theorem replies_in_order (suflen : Nat) (es : List ReplyEvent)
    (hes : (replyMachine suflen).Along
      (fun s e => (replyMachine suflen).enabled s e ∧ ReplyStepOk s e) replyStart es) :
    (replyMachine suflen).Always (ReplyOk suflen) replyStart es := by
  refine hes.always ReplyInv (fun s h => h.ok suflen) ?_ replyStart_inv
  intro s e h he
  exact replyInv_step h suflen he

/-- A frame that is cut in two and a short one, with a query for each piece. -/
def threePieces : List CarriedEvent :=
  [.queue (replicate 400 7), .queue [1, 2], .answer 9 [1, 97] 5 5, .answer 10 [1, 97] 5 5, .answer 11 [1, 97] 5 5].map
    fun e => ⟨e, 0, [1, 97], fun _ => 0⟩

lemma threePieces_along : (replyMachine 4).Along (fun s e => (replyMachine 4).enabled s e ∧ ReplyStepOk s e) replyStart
    (threePieces.map CarriedEvent.event) := by
  have hanswer : 2 ≤ 255 ∧ ¬(5 % 4294967296 + nstxTimeout) % 4294967296 < 5 % 4294967296 := by decide
  have hlong : (replicate 400 (7 : UInt8)).length ≤ maxpkt ∧ 1 % 4096 ≠ 0 := by
    rw [length_replicate]
    decide
  have hshort : 2 ≤ maxpkt ∧ 2 % 4096 ≠ 0 := by decide
  exact ⟨hlong, hshort, hanswer, hanswer, hanswer, trivial⟩

theorem replies_in_order_two :
    (replyMachine 4).Always (ReplyOk 4) replyStart (threePieces.map CarriedEvent.event) :=
  replies_in_order 4 _ threePieces_along

/-- A number of frames of one byte, each sent before the next one comes. -/
def oneByOne : Nat → List ReplyEvent
  | 0 => []
  | n + 1 => .queue [7] :: .answer 0 [] 0 0 :: oneByOne n

lemma oneByOne_enabled (suflen n : Nat) (s : ReplyRun) :
    (replyMachine suflen).Along (replyMachine suflen).enabled s (oneByOne n) := by
  induction n generalizing s with
  | zero => trivial
  | succ n ih => exact ⟨show 1 ≤ maxpkt by decide, Nat.zero_le _, ih _⟩

lemma oneByOne_round (suflen n : Nat) (queued delivered : List (List UInt8)) :
    replyStep suflen (replyStep suflen ⟨⟨[], n⟩, [], queued, delivered⟩ (.queue [7])) (.answer 0 [] 0 0) =
    ⟨⟨[], n + 1⟩, [], queued ++ [[7]], delivered ++ if (n + 1) % 4096 = 0 then [] else [[7]]⟩ := by
  have hspace := replySpace_ge suflen 0 (show ([] : List UInt8).length ≤ 255 by decide)
  rw [replyStep, replyStep, queueSenditem]
  dsimp only
  rw [nil_append, dequeueSenditem_cons (by omega) (Nat.zero_le _), if_pos (by simp; omega)]
  dsimp only
  by_cases h0 : (n + 1) % 4096 = 0
  · have hdrop : nstxHandlepacket [] ((answerHeader ⟨[7], n + 1, 0, 0⟩ True).toBytes ++ [7]) 0 0 =
        ([], none) := by
      have hid := (answerHeader_next ⟨[7], n + 1, 0, 0⟩ True).ofBytes (Nat.mod_lt _ (by decide))
        (Nat.zero_lt_succ _) [7]
      rw [nstxHandlepacket, if_neg (by simp [Nstxhdr.toBytes]), hid]
      exact if_pos h0
    rw [ReplyRun.handle, drop_zero]
    dsimp only
    rw [hdrop, if_pos h0]
    rfl
  have hnext : IsNext (answerHeader ⟨[7], n + 1, 0, 0⟩ True) ((n + 1) % 4096)
      ([] : List (List UInt8)).length True := answerHeader_next ⟨[7], n + 1, 0, 0⟩ True
  have hkeep : Survives 0 0 :=
    show ¬(0 % 4294967296 + nstxTimeout) % 4294967296 < 0 % 4294967296 by decide
  rw [handle_underWay ⟨⟨[], n + 1⟩, [], queued ++ [[7]], delivered⟩ (t := 0) rfl
    (Nat.pos_of_ne_zero h0) (Nat.mod_lt _ (by decide)) (by decide) hnext _ 0 0 hkeep, if_pos trivial,
    if_neg h0]
  rfl

lemma oneByOne_run (suflen k n : Nat) (queued delivered : List (List UInt8)) :
    (replyMachine suflen).run ⟨⟨[], n⟩, [], queued, delivered⟩ (oneByOne (k + 1)) =
      (replyMachine suflen).run ⟨⟨[], n + 1⟩, [], queued ++ [[7]],
        delivered ++ if (n + 1) % 4096 = 0 then [] else [[7]]⟩ (oneByOne k) := by
  have hstep : (replyMachine suflen).step = replyStep suflen := rfl
  rw [oneByOne, Machine.run, foldl_cons, foldl_cons, hstep, oneByOne_round, Machine.run, hstep]

lemma oneByOne_lost (suflen k n : Nat) (hk : k ≠ 0) (hn : n + k = 4096) (queued delivered : List (List UInt8))
    (hlen : delivered.length = queued.length) : ∃ m q d,
    (replyMachine suflen).run ⟨⟨[], n⟩, [], queued, delivered⟩ (oneByOne k) = ⟨⟨[], m⟩, [], q, d⟩ ∧ d.length + 1 =
    q.length := by
  induction k generalizing n queued delivered with
  | zero => exact absurd rfl hk
  | succ k ih =>
    rw [oneByOne_run]
    by_cases hlast : k = 0
    · subst hlast
      rw [if_pos (by omega)]
      exact ⟨n + 1, queued ++ [[7]], delivered ++ [], rfl, by simp [hlen]⟩
    rw [if_neg (by omega)]
    exact ih (n + 1) hlast (by omega) (queued ++ [[7]]) (delivered ++ [[7]]) (by simp [hlen])

theorem replies_lose_frame : (replyMachine 4).Along (replyMachine 4).enabled replyStart (oneByOne 4096) ∧
    ¬(replyMachine 4).Always (ReplyOk 4) replyStart (oneByOne 4096) := by
  refine ⟨oneByOne_enabled 4 4096 replyStart, ?_⟩
  intro h
  obtain ⟨m, q, d, hrun, hcount⟩ := oneByOne_lost 4 4096 0 (by omega) (by omega) [] [] rfl
  have hframes := h.last.frames
  rw [replyStart, hrun] at hframes
  have hlen := congrArg length hframes
  simp only [map_nil, append_nil] at hlen
  omega

/-! ## The answers as datagrams -/

/-- The query that is answered has a legal name. -/
def CarriedEvent.Named (e : CarriedEvent) : Prop :=
  ∃ ls, IsName ls ∧ (labelForm ls).length ≤ 255 ∧ labelForm ls =
    match e.event with
    | .answer _ name _ _ => name
    | _ => e.name

section

variable {ls : List (List UInt8)} {data : List UInt8}

lemma answer_length {s server : NsServer} {suflen : Nat}
    (h : dequeueSenditem s (replySpace suflen id name) = some (data, server)) : data.length ≤ 253 := by
  have hle : replySpace suflen id name ≤ 253 := by grind [replySpace, dnsGetfreespace]
  unfold dequeueSenditem at h
  split at h
  · cases h
  dsimp only at h
  split_ifs at h <;> cases h <;> simp [Nstxhdr.toBytes] <;> omega

lemma extract_answer (id : Nat) (hls : IsName ls) (hname : (labelForm ls).length ≤ 255)
    (hdata : data.length ≤ 253) : ∃ turns, dnsExtractpkt (answerDatagram id (labelForm ls) data) =
    .ok (turns, some ⟨id % 65536, none, [nameRr ls], [txtRr data 0]⟩) := by
  have htext : (data2txt data).length ≤ data.length + data.length / 255 + 2 := cstringify_length_le (by decide)
  have hbuf : answerDatagram id (labelForm ls) data =
      UInt8.ofNat (id % 65536 / 256) :: UInt8.ofNat (id % 65536 % 256) :: 0x84 :: 0x80 :: 0 :: 1 :: 0 :: 1 ::
        0 :: 0 :: 0 :: 0 :: (labelForm ls ++ [0] ++ [0, 16, 0, 1] ++ (txtBytes [12] (data, 0) ++ [])) := by
    simp [answerDatagram, dnsConstructpacket, dnsAddanswer, dnsAddquery, dnsSettype, dnsSetid, dnsAlloc, querySection,
      answerSection, rrBytes, txtBytes]
  generalize answerDatagram id (labelForm ls) data = buf at hbuf
  have hlen : buf.length = (labelForm ls).length + (data2txt data).length + 29 := by
    simp [hbuf, txtBytes]
    omega
  have hstart : buf.drop 12 = labelForm ls ++ [0] ++ [0, 16, 0, 1] ++ (txtBytes [12] (data, 0) ++ []) := by
    rw [hbuf]
    rfl
  obtain ⟨turns, remain, hquery, hleft, hlt⟩ := extractQuery_name hls
    (x := ⟨12, (buf.length - 12) % 65536, [], [], [], []⟩) hstart (by simp; omega) (by simp; omega)
    (show 12 < 65536 by decide)
  obtain ⟨turns', remain', hanswer, -⟩ := extractAnswer_txt (a := (data, 0))
    (x := ⟨12 + (nameRr ls).len + 4, remain, [12], [nameRr ls], [], turns⟩)
    (drop_add_of_drop _ hstart (by simp [nameRr]; omega)) Nat.one_pos (pairwise_singleton _ _) (by simp) hleft hlt
    (by omega)
  have hid : readShort buf 0 = .ok (id % 65536) := by
    simp [hbuf, readShort, readByte]
    omega
  have hcount : readShort buf 4 = .ok 1 ∧ readShort buf 6 = .ok 1 := by simp [hbuf, readShort, readByte]
  refine ⟨turns', ?_⟩
  rw [dnsExtractpkt, if_neg (by omega), hid, ok_bind, hcount.1, ok_bind, hcount.2, ok_bind]
  simp only [extractQueries, hquery, ok_bind, pure_bind, extractAnswers, nil_append]
  rw [hanswer]
  rfl

lemma handleReply_answer (mem : Nat → UInt8) (now check id : Nat) (s : ReplyRun) (hls : IsName ls)
    (hname : (labelForm ls).length ≤ 255) (hdata : data.length ≤ 253) :
    nstxcHandleReply (fun _ => (mem, now, check)) (answerDatagram id (labelForm ls) data) s =
    some (s.handle data now check) := by
  obtain ⟨turns, hextract⟩ := extract_answer id hls hname hdata
  have htext : (data2txt data).length ≤ data.length + data.length / 255 + 2 := cstringify_length_le (by decide)
  have hheld : (⟨(data2txt data).length, fun i => (data2txt data).getD i 0⟩ : Block UInt8).loadList 0
      (data2txt data).length = some (data2txt data) :=
    Block.loadList_eq (Nat.le_of_eq (Nat.zero_add _)) fun k hk => by simp [hk]
  obtain ⟨buf, htxt, hbytes⟩ := txt2data_data2txt (by omega) ⟨0, mem⟩ mem hheld
  rw [toInt32_of_lt (by omega)] at htxt
  rw [nstxcHandleReply, hextract]
  dsimp only [txtRr, replyLoop]
  simp only [htxt, hbytes, Option.bind_eq_bind, Option.bind_some, Int.toNat_natCast]

lemma carriedStep_eq (suflen : Nat) (s : ReplyRun) {e : CarriedEvent} (h : e.Named) :
    carriedStep suflen s e = some (replyStep suflen s e.event) := by
  obtain ⟨event, id, name, mem⟩ := e
  obtain ⟨ls, hls, hlen, hname⟩ := h
  cases event with
  | queue frame => rfl
  | timeout now check =>
    obtain rfl : labelForm ls = name := hname
    exact handleReply_answer mem now check id s hls hlen (by decide)
  | answer id name now check =>
    obtain rfl : labelForm ls = name := hname
    rw [carriedStep, replyStep]
    dsimp only
    cases hnext : dequeueSenditem s.server (replySpace suflen id (labelForm ls)) with
    | none => rfl
    | some r => exact handleReply_answer mem now check id _ hls hlen (answer_length hnext)

lemma carried_run (suflen : Nat) (s : ReplyRun) (es : List CarriedEvent) (hes : ∀ e ∈ es, e.Named) :
    es.foldlM (carriedStep suflen) s = some ((replyMachine suflen).run s (es.map CarriedEvent.event)) := by
  induction es generalizing s with
  | nil => rfl
  | cons e es ih =>
    rw [foldlM_cons, carriedStep_eq suflen s (hes e mem_cons_self)]
    exact ih _ fun e he => hes e (mem_cons_of_mem _ he)

end

/-- The frames come through in datagrams: no byte outside of a buffer is used, and under the conditions of `ReplyStepOk`
the client hands on every frame once and in order. -/
theorem datagrams_in_order (suflen : Nat) (es : List CarriedEvent) (hnames : ∀ e ∈ es, e.Named)
    (hes : (replyMachine suflen).Along (fun s e => (replyMachine suflen).enabled s e ∧ ReplyStepOk s e) replyStart
      (es.map CarriedEvent.event)) :
    let s := (replyMachine suflen).run replyStart (es.map CarriedEvent.event)
    es.foldlM (carriedStep suflen) replyStart = some s ∧ ReplyOk suflen s := by
  have hinv : (replyMachine suflen).Always ReplyInv replyStart (es.map CarriedEvent.event) := by
    refine hes.always ReplyInv (fun _ h => h) ?_ replyStart_inv
    intro s e h he
    exact replyInv_step h suflen he
  exact ⟨carried_run suflen replyStart es hnames, hinv.last.ok suflen⟩

theorem datagrams_in_order_two :
    let s := (replyMachine 4).run replyStart (threePieces.map CarriedEvent.event)
    threePieces.foldlM (carriedStep 4) replyStart = some s ∧ ReplyOk 4 s := by
  refine datagrams_in_order 4 threePieces ?_ threePieces_along
  have hname : IsName [[97]] := by
    refine ⟨cons_ne_nil _ _, ?_⟩
    intro l hl
    rw [mem_singleton.mp hl]
    exact ⟨by decide, by decide, by decide +kernel⟩
  intro e he
  simp only [threePieces, map_cons, map_nil, mem_cons, not_mem_nil, or_false] at he
  rcases he with rfl | rfl | rfl | rfl | rfl
  · exact ⟨[[97]], hname, by decide, rfl⟩
  · exact ⟨[[97]], hname, by decide, rfl⟩
  · exact ⟨[[97]], hname, by decide, rfl⟩
  · exact ⟨[[97]], hname, by decide, rfl⟩
  · exact ⟨[[97]], hname, by decide, rfl⟩

end Vde
