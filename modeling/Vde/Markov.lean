import Vde.Lib.CDouble
import Vde.Lib.CInt
import Vde.Lib.Machine

/-!
# The Markov chain of wirefilter

The weights of the edges are in one block, row after row, with rows as long as there are nodes. The weight of
the edge from a node to itself is what the other edges of its row leave of 100. The weights are exact, and
`num` is what `drand48() * 100` returns. What is printed at a transition is in `printed`.
-/

namespace Vde

def adjmapN (m : Nat → ℚ) (i j n : Nat) : ℚ := m (i * n + j)

def setAdjmapN (m : Nat → ℚ) (i j n : Nat) (v : ℚ) : Nat → ℚ := Function.update m (i * n + j) v

/-- The variables `markov_*` and `adjmap`; `adjsize` is the number of elements in the block of `adjmap`. -/
structure MarkovModel where
  numnodes : Nat
  current : Nat
  adjmap : Nat → ℚ
  adjsize : Nat
  time : ℚ
  next : Int

def rot (n i j : Nat) : Nat := (i + j) % n

def markovCompute (i : Nat) (s : MarkovModel) : MarkovModel :=
  { s with
    adjmap :=
      (List.range' 1 (s.numnodes - 1)).foldl
        (fun m j =>
          setAdjmapN m i i s.numnodes (adjmapN m i i s.numnodes - adjmapN m i (rot s.numnodes i j) s.numnodes))
        (setAdjmapN s.adjmap i i s.numnodes 100) }

def copyEdge (newsize i : Nat) (s : MarkovModel) (newmap : Nat → ℚ) (j : Nat) : Nat → ℚ :=
  let newj := (i + j) % newsize
  if i < s.numnodes ∧ newj < s.numnodes then
    let weight := adjmapN s.adjmap i newj s.numnodes
    let newmap := setAdjmapN newmap i newj newsize weight
    setAdjmapN newmap i i newsize (adjmapN newmap i i newsize - weight)
  else newmap

def copyadjmap (newsize : Nat) (newmap : Nat → ℚ) (s : MarkovModel) : Nat → ℚ :=
  (List.range newsize).foldl
    (fun newmap i =>
      (List.range' 1 (newsize - 1)).foldl (copyEdge newsize i s) (setAdjmapN newmap i i newsize 100))
    newmap

/-- The elements in the block of `calloc(numnodes*numnodes, sizeof(double))`; the product is one of `int`, and
there is no block of a negative size. -/
def callocCount (numnodes : Nat) : Nat := (toInt32 (numnodes * numnodes)).toNat

def markovResize (numnodes : Nat) (s : MarkovModel) : MarkovModel :=
  if numnodes ≠ s.numnodes then
    { s with
      current := if numnodes > s.numnodes then s.current else if numnodes ≤ s.current then 0 else s.current
      adjmap := copyadjmap numnodes (fun _ => 0) s
      adjsize := callocCount numnodes
      numnodes := numnodes }
  else s

def markovStepLoop (s : MarkovModel) (i : Nat) : Nat → Nat → ℚ → Nat → Nat
  | 0, _, _, k => k
  | turns + 1, j, num, _ =>
    let k := rot s.numnodes i j
    let val := adjmapN s.adjmap i k s.numnodes
    if num ≤ val then k else markovStepLoop s i turns (j + 1) (num - val) k

def markovStep (i : Nat) (num : ℚ) (s : MarkovModel) : Nat × MarkovModel :=
  (markovStepLoop s i s.numnodes 0 num 0, { s with next := truncate (s.next + s.time) })

def markovMove (num : ℚ) (s : MarkovModel) : MarkovModel :=
  let moved := markovStep s.current num s
  { moved.2 with current := moved.1 }

/-- `now` is the time in milliseconds. -/
def markovTry (now : Int) (num : ℚ) (s : MarkovModel) : MarkovModel :=
  if s.numnodes > 1 ∧ s.next - now ≤ 0 then markovMove num s else s

def markovStart (now : Int) (num : ℚ) (s : MarkovModel) : MarkovModel :=
  if s.numnodes > 1 then markovMove num { s with next := now } else s

def setmarkovResize (n now : Int) (num : ℚ) (s : MarkovModel) : MarkovModel :=
  if 0 < n then markovStart now num (markovResize n.toNat s) else s

def setedge (x y : Int) (weight : ℚ) (s : MarkovModel) : MarkovModel :=
  if 0 ≤ x ∧ x < s.numnodes ∧ 0 ≤ y ∧ y < s.numnodes then
    markovCompute x.toNat { s with adjmap := setAdjmapN s.adjmap x.toNat y.toNat s.numnodes weight }
  else s

def setmarkovTime (newvalue : ℚ) (now : Int) (num : ℚ) (s : MarkovModel) : MarkovModel :=
  if 0 < newvalue then markovStart now num { s with time := newvalue } else s

def setmarkovNode (n : Int) (s : MarkovModel) : MarkovModel :=
  if 0 ≤ n ∧ n < s.numnodes then { s with current := n.toNat } else s

inductive MarkovEvent where
  | resize (n now : Int) (num : ℚ)
  | edge (x y : Int) (weight : ℚ)
  | time (newvalue : ℚ) (now : Int) (num : ℚ)
  | node (n : Int)
  -- a turn of the main loop
  | turn (now : Int) (num : ℚ)

def markovEventStep (s : MarkovModel) : MarkovEvent → MarkovModel
  | .resize n now num => setmarkovResize n now num s
  | .edge x y weight => setedge x y weight s
  | .time newvalue now num => setmarkovTime newvalue now num s
  | .node n => setmarkovNode n s
  | .turn now num => markovTry now num s

def markovMachine : Machine MarkovModel MarkovEvent := ⟨fun _ _ => True, markovEventStep⟩

def markovInit : MarkovModel := markovResize 1 ⟨0, 0, fun _ => 0, 0, 100, 0⟩

end Vde
