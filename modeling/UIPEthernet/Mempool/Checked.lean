import UIPEthernet.Mempool.Operations

/-!
# The pool in checked arithmetic

The functions of `MemoryPool` once more, with an addition or subtraction that
leaves the 16-bit range answered by `none`. On a well-formed table they give
what the wrapping functions give, so no address computation of the pool wraps.
`freeBlock` computes no address.
-/

namespace UIPEthernet.MemoryPool

open Lib

namespace Checked

def add (a b : Nat) : Option Nat := if a + b < 65536 then some (a + b) else none

def sub (a b : Nat) : Option Nat := if b ≤ a then some (a - b) else none

def freesize (b : Blocks) (cur : Handle) : Option Nat :=
  let next := (b cur).nextblock
  let limit := if next = NOBLOCK then add (b POOLSTART).begin MEMPOOL_SIZE else some (b next).begin
  do sub (← sub (← limit) (b cur).begin) (b cur).size

def search (b : Blocks) (size : Nat) : Nat → Handle → Option Handle → Nat → Option (Option Handle)
  | 0, _, _, _ => none
  | fuel + 1, cur, best, bestsize => do
    let next := (b cur).nextblock
    let free ← freesize b cur
    if free = size then some (some cur)
    else
      let better := size < free ∧ free < bestsize
      let best := if better then some cur else best
      let bestsize := if better then free else bestsize
      if next = NOBLOCK then some best
      else search b size fuel next best bestsize

def collect (mv : Nat → Nat → Nat → σ → Option σ) :
    Nat → Handle → Blocks → σ → Option (Blocks × σ × Handle)
  | 0, _, _, _ => none
  | fuel + 1, cur, b, s =>
    let next := (b cur).nextblock
    if next = NOBLOCK then some (b, s, cur)
    else do
      let dest ← add (b cur).begin (b cur).size
      let src := (b next).begin
      if dest ≠ src then
        let s ← mv dest src (b next).size s
        collect mv fuel next (Function.update b next { b next with begin := dest }) s
      else collect mv fuel next b s

def found (b : Blocks) (best : Handle) (size : Nat) : Option (Blocks × Handle) :=
  match unused b with
  | none => some (b, NOBLOCK)
  | some cur => do
    let address ← add (b best).begin (b best).size
    let b := Function.update b cur ⟨address, size, (b best).nextblock⟩
    return (Function.update b best { b best with nextblock := cur }, cur)

def allocBlock (mv : Nat → Nat → Nat → σ → Option σ) (b : Blocks) (s : σ) (size : Nat) :
    Option (Blocks × σ × Handle) := do
  match ← search b size WALK_LIMIT POOLSTART none (MEMPOOL_SIZE + 1) with
  | some best =>
    let (b, h) ← found b best size
    some (b, s, h)
  | none =>
    let (b, s, last) ← collect mv WALK_LIMIT POOLSTART b s
    if size ≤ (← sub (← sub (← add (b POOLSTART).begin MEMPOOL_SIZE) (b last).begin) (b last).size) then
      let (b, h) ← found b last size
      some (b, s, h)
    else some (b, s, NOBLOCK)

def resizeBlock (b : Blocks) (handle : Handle) (position : Nat) : Option Blocks := do
  let begin ← add (b handle).begin position
  let size ← sub (b handle).size position
  return Function.update b handle { b handle with begin := begin, size := size }

def resizeBlockTo (b : Blocks) (handle : Handle) (position size : Nat) : Option Blocks := do
  let begin ← add (b handle).begin position
  return Function.update b handle { b handle with begin := begin, size := size }

end Checked

variable {b b' : Blocks} {l A B : List Handle} {c x : Handle} {size bestsize fuel position : Nat}
  {best : Option Handle}

theorem Wf.stop_lt (hw : Wf b l) (hc : c ∈ POOLSTART :: l) : (b c).begin + (b c).size < 65536 := by
  have := hw.stop_le hc
  have : POOLEND < 65536 := by decide
  simp only [Memblock.stop] at *
  omega

theorem Wf.checked_stop (hw : Wf b l) (hc : c ∈ POOLSTART :: l) :
    Checked.add (b c).begin (b c).size = some (add16 (b c).begin (b c).size) := by
  have := hw.stop_lt hc
  rw [Checked.add, if_pos this, add16_eq this]

theorem Wf.checked_freesize (hw : Wf b l) (hs : POOLSTART :: l = A ++ c :: B) :
    Checked.freesize b c = some (freesize b c) := by
  obtain ⟨hle, hlim⟩ := hw.limit_bounds hs
  have hc := hw.linked.drop hs
  have hend : POOLEND < 65536 := by decide
  have hn : (if (b c).nextblock = NOBLOCK then Checked.add (b POOLSTART).begin MEMPOOL_SIZE
      else some (b (b c).nextblock).begin) = some (limit b B) := by
    cases B with
    | nil =>
      have hc : (b c).nextblock = NOBLOCK := hc
      rw [if_pos hc, hw.start_begin]; rfl
    | cons y B =>
      obtain ⟨hy, hne, -⟩ := hc
      have hy : (b c).nextblock = y := hy
      rw [hy, if_neg hne]; rfl
  rw [hw.freesize_eq hs]
  simp only [Memblock.stop] at hle ⊢
  simp only [Checked.freesize, hn, Option.bind_eq_bind, Option.bind_some]
  rw [Checked.sub, if_pos (by omega), Option.bind_some, Checked.sub, if_pos (by omega)]
  congr 1
  omega

theorem Wf.checked_search (hw : Wf b l) (hs : POOLSTART :: l = A ++ x :: B) :
    Checked.search b size fuel x best bestsize = search b size fuel x best bestsize := by
  induction B generalizing A x best bestsize fuel with
  | nil =>
    cases fuel with
    | zero => rfl
    | succ fuel =>
      have hx : (b x).nextblock = NOBLOCK := hw.linked.drop hs
      simp [Checked.search, search, hw.checked_freesize hs, hx]
  | cons y B ih =>
    cases fuel with
    | zero => rfl
    | succ fuel =>
      obtain ⟨hy, hne, -⟩ := hw.linked.drop hs
      have hy : (b x).nextblock = y := hy
      have hs' : POOLSTART :: l = (A ++ [x]) ++ y :: B := by simp [hs]
      simp only [Checked.search, search, hw.checked_freesize hs, hy, if_neg hne,
        Option.bind_eq_bind, Option.bind_some, ih hs']

section
variable {σ : Type} {mv : Nat → Nat → Nat → σ → Option σ} {s : σ}

theorem Wf.checked_collect (hw : Wf b l) (hs : POOLSTART :: l = A ++ x :: B) :
    Checked.collect mv fuel x b s = collect mv fuel x b s := by
  induction B generalizing A x b s fuel with
  | nil =>
    cases fuel with
    | zero => rfl
    | succ fuel =>
      have hx : (b x).nextblock = NOBLOCK := hw.linked.drop hs
      simp [Checked.collect, collect, hx]
  | cons y B ih =>
    cases fuel with
    | zero => rfl
    | succ fuel =>
      obtain ⟨hy, hne, -⟩ := hw.linked.drop hs
      have hy : (b x).nextblock = y := hy
      have hs' : POOLSTART :: l = (A ++ [x]) ++ y :: B := by simp [hs]
      have hdest := hw.add16_stop (mem_of_split hs)
      have hmoved : ∀ s, Checked.collect mv fuel y
          (Function.update b y { b y with begin := (b x).stop }) s =
          collect mv fuel y (Function.update b y { b y with begin := (b x).stop }) s :=
        fun s => ih (hw.moveDown hs) hs'
      simp only [Checked.collect, collect, hy, if_neg hne, hw.checked_stop (mem_of_split hs), hdest,
        Option.bind_eq_bind, Option.bind_some, hmoved, ih hw hs']

theorem Wf.checked_found (hw : Wf b l) (hc : c ∈ POOLSTART :: l) :
    Checked.found b c size = some (found b c size) := by
  unfold Checked.found found
  cases unused b with
  | none => rfl
  | some cur => simp [hw.checked_stop hc]

theorem Wf.checked_allocBlock {R : Blocks → σ → Blocks → σ → Prop} (hR : Carried mv R)
    (hw : Wf b l) : Checked.allocBlock mv b s size = allocBlock mv b s size := by
  have hfuel : l.length < WALK_LIMIT := Nat.lt_of_le_of_lt hw.length_le (by decide)
  rw [Checked.allocBlock, allocBlock, hw.checked_search (A := []) rfl]
  have hmax : ∀ d ∈ POOLSTART :: l, freesize b d ≤ MEMPOOL_SIZE := fun d hd => by
    have := hw.inUse_freesize hd
    omega
  obtain ⟨r, hr, hsearched⟩ := search_ok hw.linked hmax hfuel (Searching.nil b size)
  simp only [hr, Option.bind_eq_bind, Option.bind_some]
  cases r with
  | some c =>
    rw [List.nil_append] at hsearched
    simp [hw.checked_found hsearched.1]
  | none =>
    obtain ⟨b₁, s₁, last, hc, hcol, -⟩ := collect_ok (s := s) hR hw (A := []) rfl hfuel
    obtain ⟨A', hlast⟩ := hcol.last_eq
    have hn : (b₁ last).nextblock = NOBLOCK := hcol.wf.linked.drop hlast
    have hroom := hcol.wf.checked_freesize hlast
    simp only [Checked.freesize, freesize, hn, if_true] at hroom
    simp only [hw.checked_collect (A := []) rfl, hc, Option.bind_some]
    simp only [Option.bind_eq_bind, ← Option.bind_assoc] at hroom ⊢
    rw [hroom, Option.bind_some, hcol.wf.checked_found (mem_of_split hlast)]
    rfl

end

theorem Wf.checked_resizeBlockTo (hw : Wf b l) {n : Handle} (hn : n ∈ l)
    (hp : position + size ≤ (b n).size) :
    Checked.resizeBlockTo b n position size = some (resizeBlockTo b n position size) := by
  have := hw.stop_lt (List.mem_cons_of_mem _ hn)
  have hadd : Checked.add (b n).begin position = some (add16 (b n).begin position) := by
    rw [Checked.add, if_pos (by omega), add16_eq (by omega)]
  simp [Checked.resizeBlockTo, resizeBlockTo, hadd]

theorem Wf.checked_resizeBlock (hw : Wf b l) {n : Handle} (hn : n ∈ l)
    (hp : position ≤ (b n).size) :
    Checked.resizeBlock b n position = some (resizeBlock b n position) := by
  have := hw.stop_lt (List.mem_cons_of_mem _ hn)
  have hadd : Checked.add (b n).begin position = some (add16 (b n).begin position) := by
    rw [Checked.add, if_pos (by omega), add16_eq (by omega)]
  have hsub : Checked.sub (b n).size position = some (sub16 (b n).size position) := by
    rw [Checked.sub, if_pos hp, sub16_eq hp (by omega)]
  simp [Checked.resizeBlock, resizeBlock, hadd, hsub]

end UIPEthernet.MemoryPool
