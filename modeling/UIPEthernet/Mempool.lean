import UIPEthernet.Conf
import Mathlib.Logic.Function.Basic

/-!
# The memory pool

`MemoryPool` of `utility/mempool.cpp`: a table of descriptors, chained through
`nextblock` in ascending address order from the empty descriptor `POOLSTART`.
The pool only keeps the descriptors. What the blocks hold is moved through the
hook `MEMPOOL_MEMBLOCK_MV`, here a parameter acting on a state `σ` of its own.

A loop that has taken `WALK_LIMIT` turns has met some 8-bit handle twice and
never ends; the functions answer `none` for it.
-/

namespace UIPEthernet

abbrev Handle := Nat

def POOLSTART : Handle := 0
def NOBLOCK : Handle := 0
def POOLOFFSET : Handle := 1

/-- The number of 8-bit handles. -/
def WALK_LIMIT : Nat := 256

structure Memblock where
  begin : Nat
  size : Nat
  nextblock : Handle
deriving DecidableEq, Repr

abbrev Blocks := Handle → Memblock

namespace MemoryPool

def init : Blocks :=
  Function.update (fun _ => ⟨0, 0, 0⟩) POOLSTART ⟨MEMPOOL_STARTADDRESS, 0, NOBLOCK⟩

/-- The gap between block `cur` and its successor, or the end of the pool. -/
def freesize (b : Blocks) (cur : Handle) : Nat :=
  let next := (b cur).nextblock
  let limit := if next = NOBLOCK then add16 (b POOLSTART).begin MEMPOOL_SIZE else (b next).begin
  sub16 (sub16 limit (b cur).begin) (b cur).size

/-- The first loop of `allocBlock`. The result is the block to allocate
behind, or `none` where the source goes to `collect`. -/
def search (b : Blocks) (size : Nat) : Nat → Handle → Option Handle → Nat → Option (Option Handle)
  | 0, _, _, _ => none
  | fuel + 1, cur, best, bestsize =>
    let next := (b cur).nextblock
    let free := freesize b cur
    if free = size then some (some cur)
    else
      let better := size < free ∧ free < bestsize
      let best := if better then some cur else best
      let bestsize := if better then free else bestsize
      if next = NOBLOCK then some best
      else search b size fuel next best bestsize

/-- The compaction loop. Its results are the table, the hook's state and the
last block of the chain. -/
def collect (mv : Nat → Nat → Nat → σ → Option σ) :
    Nat → Handle → Blocks → σ → Option (Blocks × σ × Handle)
  | 0, _, _, _ => none
  | fuel + 1, cur, b, s =>
    let next := (b cur).nextblock
    if next = NOBLOCK then some (b, s, cur)
    else
      let dest := add16 (b cur).begin (b cur).size
      let src := (b next).begin
      if dest ≠ src then do
        let s ← mv dest src (b next).size s
        collect mv fuel next (Function.update b next { b next with begin := dest }) s
      else collect mv fuel next b s

/-- The first descriptor with `size == 0`. -/
def unused (b : Blocks) : Option Handle :=
  (List.range' POOLOFFSET MEMPOOL_NUM_MEMBLOCKS).find? fun h => (b h).size = 0

/-- The code at `found`: a descriptor is linked in behind `best`. -/
def found (b : Blocks) (best : Handle) (size : Nat) : Blocks × Handle :=
  match unused b with
  | none => (b, NOBLOCK)
  | some cur =>
    let address := add16 (b best).begin (b best).size
    let b := Function.update b cur ⟨address, size, (b best).nextblock⟩
    (Function.update b best { b best with nextblock := cur }, cur)

def allocBlock (mv : Nat → Nat → Nat → σ → Option σ) (b : Blocks) (s : σ) (size : Nat) :
    Option (Blocks × σ × Handle) := do
  match ← search b size WALK_LIMIT POOLSTART none (MEMPOOL_SIZE + 1) with
  | some best =>
    let (b, h) := found b best size
    some (b, s, h)
  | none =>
    let (b, s, last) ← collect mv WALK_LIMIT POOLSTART b s
    if size ≤ sub16 (sub16 (add16 (b POOLSTART).begin MEMPOOL_SIZE) (b last).begin) (b last).size then
      let (b, h) := found b last size
      some (b, s, h)
    else some (b, s, NOBLOCK)

/-- The loop of `freeBlock`, with `prev` the block it looks behind. -/
def unlink (handle : Handle) : Nat → Handle → Blocks → Option Blocks
  | 0, _, _ => none
  | fuel + 1, prev, b =>
    let next := (b prev).nextblock
    if next = handle then
      let b := Function.update b prev { b prev with nextblock := (b next).nextblock }
      some (Function.update b next { b next with size := 0, nextblock := NOBLOCK })
    else if next = NOBLOCK then some b
    else unlink handle fuel next b

def freeBlock (b : Blocks) (handle : Handle) : Option Blocks :=
  if handle = NOBLOCK then some b else unlink handle WALK_LIMIT POOLSTART b

/-- `resizeBlock(handle, position)`. -/
def resizeBlock (b : Blocks) (handle : Handle) (position : Nat) : Blocks :=
  Function.update b handle
    { b handle with begin := add16 (b handle).begin position, size := sub16 (b handle).size position }

/-- `resizeBlock(handle, position, size)`. -/
def resizeBlockTo (b : Blocks) (handle : Handle) (position size : Nat) : Blocks :=
  Function.update b handle { b handle with begin := add16 (b handle).begin position, size := size }

def blockSize (b : Blocks) (handle : Handle) : Nat := (b handle).size

end MemoryPool

end UIPEthernet
