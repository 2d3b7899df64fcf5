import Vde.Lib.CInt
import Vde.Vxlan

/-!
# What the handlers of vde_vxlan do with their buffer

`plug_process` and `vxlan_process` with every result of `vde_recv` and `recvfrom`: the bytes of `struct vxlan_pkt` that
they look at, those that are stored, and the lengths that they hand on. A failed call stores nothing, and the handler
goes on with the old contents of the buffer.
-/

namespace Vde.Vxlan

inductive RecvResult where
  | failed
  | received (data : List UInt8)

namespace RecvResult

def bytes (size : Nat) : RecvResult → List UInt8
  | failed => []
  | received data => data.take size

def value (size : Nat) : RecvResult → Int
  | failed => -1
  | received data => (data.take size).length

end RecvResult

def flagsField : List Nat := [0]
def idField : List Nat := [4, 5, 6]
def destField : List Nat := [8, 9, 10, 11, 12, 13]
def srcField : List Nat := [14, 15, 16, 17, 18, 19]

inductive Send where
  | plug (pkt : Mem) (len : Nat)
  | vxlan (addr : BitVec 32) (pkt : Mem) (len : Nat)

namespace Send

def len : Send → Nat
  | plug _ len => len
  | vxlan _ _ len => len

def output (g : Gateway) : Send → Output
  | plug pkt len => plugSend pkt len
  | vxlan addr pkt len => vxlanSend g addr pkt len

def writes : Send → List (Nat × Nat)
  | plug _ _ => []
  | vxlan _ _ _ => [(0, pktAt)]

end Send

structure Handled where
  gateway : Gateway
  looks : List Nat
  writes : List (Nat × Nat)
  sends : List Send

/-- `vxlan_process` sends the frame to the switch. -/
def Gateway.inward (g : Gateway) (pkt : Mem) : Bool :=
  if isBroadcast pkt pktAt then true
  else
    let destAddr := g.findInHash (macAt pkt pktAt)
    destAddr = 0 ∨ destAddr = 1

/-- The address that `plug_process` hands to `vxlan_send`. -/
def Gateway.outward (g : Gateway) (pkt : Mem) : Option (BitVec 32) :=
  if isBroadcast pkt pktAt then some 0
  else
    let destAddr := g.findInHash (macAt pkt pktAt)
    if destAddr = 0 then some 0
    else if 1 < destAddr then some destAddr
    else none

def vxlanProcessRecv (g : Gateway) (stale : Mem) (srcAddr : BitVec 32) (r : RecvResult) (malloc : Option Nat)
    (now : Int) : Handled :=
  let pkt := memcpy stale 0 (r.bytes vxlanPktSize)
  let len := toSize (r.value vxlanPktSize)
  let writes := [(0, (r.bytes vxlanPktSize).length)]
  if pkt 0 ≠ 8 then ⟨g, flagsField, writes, []⟩
  else if ntoh24 pkt 4 ≠ g.vxlanId then ⟨g, flagsField ++ idField, writes, []⟩
  else
    let g := g.findInHashUpdate malloc now (macAt pkt (pktAt + 6)) srcAddr
    let looks := flagsField ++ idField ++ srcField ++ destField
    if g.inward pkt then ⟨g, looks, writes, [.plug pkt (toSize (len - pktAt))]⟩ else ⟨g, looks, writes, []⟩

/-- `plug_process`. The room given to `vde_recv` is that of the whole structure, from `pkt` on. -/
def plugProcessRecv (g : Gateway) (stale : Mem) (r : RecvResult) (malloc : Option Nat) (now : Int) : Handled :=
  let pkt := memcpy stale pktAt (r.bytes vxlanPktSize)
  let nx := r.value vxlanPktSize
  let writes := [(pktAt, (r.bytes vxlanPktSize).length)]
  let g := g.findInHashUpdate malloc now (macAt pkt (pktAt + 6)) 1
  let looks := srcField ++ destField
  match g.outward pkt with
  | none => ⟨g, looks, writes, []⟩
  | some addr =>
    let send := Send.vxlan addr pkt (toSize nx)
    ⟨g, looks, writes ++ send.writes, [send]⟩

variable {g : Gateway} {stale : Mem} {srcAddr : BitVec 32} {malloc : Option Nat} {now : Int}

lemma received_length_le (data : List UInt8) : (data.take vxlanPktSize).length ≤ 1526 := by
  rw [List.length_take]
  exact Nat.min_le_left _ _

lemma ite_inward {α : Type} (pkt : Mem) (yes no : α) :
    (if isBroadcast pkt pktAt then yes
      else
        let destAddr := g.findInHash (macAt pkt pktAt)
        if destAddr = 0 ∨ destAddr = 1 then yes else no) =
      if g.inward pkt then yes else no := by
  simp only [Gateway.inward]
  by_cases hb : isBroadcast pkt pktAt = true
  · simp only [if_pos hb, if_true]
  · simp only [if_neg hb, decide_eq_true_eq]

lemma ite_outward {α : Type} (pkt : Mem) (send : BitVec 32 → α) (no : α) :
    (if isBroadcast pkt pktAt then send 0
      else
        let destAddr := g.findInHash (macAt pkt pktAt)
        if destAddr = 0 then send 0 else if 1 < destAddr then send destAddr else no) =
      match g.outward pkt with
      | none => no
      | some addr => send addr := by
  simp only [Gateway.outward]
  by_cases hb : isBroadcast pkt pktAt = true
  · simp only [if_pos hb]
  by_cases hzero : g.findInHash (macAt pkt pktAt) = 0
  · simp only [if_neg hb, if_pos hzero]
  by_cases hone : 1 < g.findInHash (macAt pkt pktAt)
  · simp only [if_neg hb, if_neg hzero, if_pos hone]
  · simp only [if_neg hb, if_neg hzero, if_neg hone]

lemma vxlanProcessRecv_received (data : List UInt8) :
    let h := vxlanProcessRecv g stale srcAddr (.received data) malloc now
    vxlanProcess g stale srcAddr data malloc now = (h.gateway, h.sends.map (Send.output h.gateway)) := by
  have hlen := received_length_le data
  have hval : toSize ((toSize ((data.take vxlanPktSize).length : Int) : Int) - (pktAt : Int)) =
      ((data.take vxlanPktSize).length + 2 ^ 64 - pktAt) % 2 ^ 64 := by
    rw [toSize_of_nonneg (Int.natCast_nonneg _) (by omega), Int.toNat_natCast, toSize, pktAt]
    omega
  simp only [vxlanProcess, vxlanProcessRecv, RecvResult.bytes, RecvResult.value, hval]
  split
  · rfl
  split
  · rfl
  rw [ite_inward]
  split
  · rfl
  · rfl

/-- On a frame that fits in behind the header the handler is `plugProcess`; the other frames go past the end of the
structure. -/
lemma plugProcessRecv_received (data : List UInt8) :
    let h := plugProcessRecv g stale (.received data) malloc now
    plugProcess g stale data malloc now =
      if ethPktSize < (data.take vxlanPktSize).length then none
      else some (h.gateway, h.sends.map (Send.output h.gateway)) := by
  have hlen := received_length_le data
  have hval : toSize ((data.take vxlanPktSize).length : Int) = (data.take vxlanPktSize).length := by
    rw [toSize_of_nonneg (Int.natCast_nonneg _) (by omega), Int.toNat_natCast]
  unfold plugProcess plugProcessRecv
  simp only [RecvResult.bytes, RecvResult.value, hval]
  split
  · rfl
  generalize g.findInHashUpdate malloc now _ 1 = g'
  generalize memcpy stale pktAt (data.take vxlanPktSize) = pkt
  rw [ite_outward pkt (fun addr => some (g', [vxlanSend g' addr pkt (data.take vxlanPktSize).length]))]
  cases g'.outward pkt with
  | none => rfl
  | some addr => rfl

end Vde.Vxlan
