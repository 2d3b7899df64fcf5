import Vde.Lib.BitArray
import Vde.Lib.Block

/-!
# Bit arrays in memory

The functions of bitarray.h on the block that holds the words. Sizes and word counts are `int`s.
The block of a `bac_` array has one word more, behind the bits, with the number of its members.
-/

namespace Vde

abbrev WordBlock := Block (BitVec 64)

def wordSizeRoundInt (n : Int) : Int := toInt32 (n + 63) / 64

def callocWords (count : Int) : Option WordBlock :=
  if toSize count * 8 ≤ ptrdiffMax then some ⟨toSize count, fun _ => 0#64⟩ else none

def reallocWords (b : WordBlock) (count : Int) (fresh : Nat → BitVec 64) : WordBlock :=
  let size := toSize count * 8 % 18446744073709551616
  if size ≤ ptrdiffMax then b.realloc (size / 8) fresh else ⟨0, fresh⟩

def loadWord (x : WordBlock) (i : Int) : Option (BitVec 64) := if 0 ≤ i then x.load i.toNat else none

def storeWord (x : WordBlock) (i : Int) (v : BitVec 64) : Option WordBlock :=
  if 0 ≤ i then x.store i.toNat v else none

def baReallocWords (b : WordBlock) (fresh : Nat → BitVec 64) (n m : Nat) : Option WordBlock := do
  let nb := reallocWords b (wordSizeRoundInt m) fresh
  let nb ← nb.storeList (wordSizeRoundInt n).toNat
    (List.replicate (wordSizeRoundInt m - wordSizeRoundInt n).toNat 0#64)
  let v ← loadWord nb (wordSizeRoundInt n - 1)
  storeWord nb (wordSizeRoundInt n - 1) (v &&& (BitVec.allOnes 64 >>> ((64 - n % 64) % 64)))

def baForallWords {σ : Type} (x : WordBlock) (n : Nat) (body : Nat → σ → σ) (s : σ) : Option σ :=
  (List.range (wordSizeRound n)).foldlM (fun s i => (x.load i).map (fun v => wordForall v i body s)) s

/-- `ba_card`; the count is an `unsigned int`. -/
def baCardWords (x : WordBlock) (n : Nat) : Option Nat :=
  baForallWords x n (fun _ c => (c + 1) % 4294967296) 0

def bacAllocWords (n : Nat) : Option WordBlock := callocWords (wordSizeRoundInt n + 1)

def bacSetWords (x : WordBlock) (n i : Nat) : Option WordBlock := do
  let w ← x.load (i >>> 6)
  let v := w ||| bitMask i
  if v ≠ w then
    let x ← x.store (i >>> 6) v
    let card ← x.load (wordSizeRound n)
    x.store (wordSizeRound n) (card + 1)
  else return x

def bacClrWords (x : WordBlock) (n i : Nat) : Option WordBlock := do
  let w ← x.load (i >>> 6)
  let v := w &&& ~~~bitMask i
  if v ≠ w then
    let x ← x.store (i >>> 6) v
    let card ← x.load (wordSizeRound n)
    x.store (wordSizeRound n) (card - 1)
  else return x

/-- The loop of `bac_FORALL` and `bac_FORALLFUN` from word `i` on with the counter `n`; nothing
bounds `i`. The indices of the words read are noted. -/
def bacForallLoop {σ : Type} (x : WordBlock) (body : Nat → σ → σ) :
    Nat → Nat → Int → σ → List Nat → Option (σ × List Nat)
  | 0, _, _, _, _ => none
  | fuel + 1, i, n, s, reads =>
    if 0 < n then do
      let v ← x.load i
      let r := wordForall v i (fun k (r : σ × Int) => (body k r.1, r.2 - 1)) (s, n)
      bacForallLoop x body fuel (i + 1) r.2 r.1 (reads ++ [i])
    else some (s, reads)

/-- `bac_FORALL` and `bac_FORALLFUN`, with a body that leaves the array alone, followed for at most
`fuel` tests of the counter. -/
def bacForallWords {σ : Type} (x : WordBlock) (n fuel : Nat) (body : Nat → σ → σ) (s : σ) :
    Option (σ × List Nat) := do
  let card ← x.load (wordSizeRound n)
  bacForallLoop x body fuel 0 (toInt32 card.toNat) s []

inductive BacOp (n : Nat) where
  | set (i : Fin n)
  | clr (i : Fin n)
  deriving DecidableEq, Repr

def bacOpWords {n : Nat} (x : WordBlock) : BacOp n → Option WordBlock
  | .set i => bacSetWords x n i
  | .clr i => bacClrWords x n i

def setBits (x : WordBlock) (n : Nat) : List Nat := (List.range n).filter (fun i => baCheck x.elems i)

end Vde
