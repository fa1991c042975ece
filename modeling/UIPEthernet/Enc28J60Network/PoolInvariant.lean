import UIPEthernet.Enc28J60Network.Refinement
import UIPEthernet.Mempool.Checked

/-!
# The pool's invariant over whole runs

`PoolCall` are the calls on the pool itself, any size from one on and any
handle included. Every run of them from `init` keeps the table well formed,
every loop of the next call ends, and no address computation wraps.
-/

namespace UIPEthernet.Enc28J60Network

open Lib MemoryPool

/-- The calls on the pool, and what their callers owe. -/
inductive PoolCall (b : Blocks) : Call → Prop
  | allocBlock (hsize : 1 ≤ size) : PoolCall b (.allocBlock size)
  | freeBlock : PoolCall b (.freeBlock h)
  | resizeBlock (hl : Live b h) (hp : position < (b h).size) :
    PoolCall b (.resizeBlock h position)
  | resizeBlockTo (hl : Live b h) (hsize : 1 ≤ size) (hp : position + size ≤ (b h).size) :
    PoolCall b (.resizeBlockTo h position size)

/-- The same calls in checked arithmetic: the table after the call. -/
def checkedBlocks (e : Enc28J60Network) : Call → Option Blocks
  | .allocBlock size => do
    let (b, _, _) ← Checked.allocBlock mempoolBlockMoveCallback e.blocks e.ram size
    return b
  | .freeBlock h => MemoryPool.freeBlock e.blocks h
  | .resizeBlock h position => Checked.resizeBlock e.blocks h position
  | .resizeBlockTo h position size => Checked.resizeBlockTo e.blocks h position size
  | _ => some e.blocks

variable {e e' : Enc28J60Network} {x : Call} {r : Result}

theorem PoolCall.allowed (h : PoolCall e.blocks x) : x.Allowed e.view ∧ ¬x.CopiesNothing := by
  have hview : ∀ {h}, Live e.blocks h →
      ∃ c, e.view h = some c ∧ c.length = (e.blocks h).size := fun {h} hl =>
    ⟨_, view_some.mpr ⟨hl, rfl⟩, by simp [contents]⟩
  cases h with
  | allocBlock hsize => exact ⟨hsize, id⟩
  | freeBlock => exact ⟨trivial, id⟩
  | resizeBlock hl hp =>
    obtain ⟨c, hc, hlen⟩ := hview hl
    exact ⟨⟨c, hc, by omega⟩, id⟩
  | resizeBlockTo hl hsize hp =>
    obtain ⟨c, hc, hlen⟩ := hview hl
    exact ⟨⟨c, hc, hsize, by omega⟩, id⟩

def PoolStep (e : Enc28J60Network) (x : Call × Result) (e' : Enc28J60Network) : Prop :=
  PoolCall e.blocks x.1 ∧ e.call x.1 = some (e', x.2)

theorem PoolStep.valid {x : Call × Result} (hv : e.Valid) (h : PoolStep e x e') : e'.Valid :=
  (CallStep.ok (x := x.1) (r := x.2) hv ⟨h.1.allowed.1, h.2⟩).1

theorem checkedBlocks_ok (hv : e.Valid) (h : PoolCall e.blocks x)
    (hcall : e.call x = some (e', r)) : e.checkedBlocks x = some e'.blocks := by
  obtain ⟨l, hw⟩ := hv
  cases h with
  | allocBlock hsize =>
    obtain ⟨⟨e₁, i⟩, halloc, heq⟩ := Option.bind_eq_some_iff.mp hcall
    obtain ⟨⟨b, ram, j⟩, halloc', heq'⟩ := Option.bind_eq_some_iff.mp halloc
    cases heq
    cases heq'
    simp [checkedBlocks, hw.checked_allocBlock carried_same, halloc']
  | freeBlock =>
    obtain ⟨e₁, hfree, heq⟩ := Option.bind_eq_some_iff.mp hcall
    obtain ⟨b, hfree', heq'⟩ := Option.bind_eq_some_iff.mp hfree
    cases heq
    cases heq'
    exact hfree'
  | resizeBlock hl hp =>
    cases hcall
    exact hw.checked_resizeBlock (hw.mem_iff.mpr hl) (Nat.le_of_lt hp)
  | resizeBlockTo hl hsize hp =>
    cases hcall
    exact hw.checked_resizeBlockTo (hw.mem_iff.mpr hl) hp

/-- After every run of calls on the pool the chain is acyclic, in address
order and made of the descriptors in use, the blocks are disjoint and inside
the pool; and whatever the next call is, it ends, with checked arithmetic
giving the same table. -/
theorem pool_invariant {ram : Nat → Byte} {t : List Transmission} {es : List (Call × Result)}
    (h : Run PoolStep (init ram t) es e) :
    (∃ l, Wf e.blocks l ∧ (POOLSTART :: l).Nodup ∧
      ∀ i ∈ l, ∀ j ∈ l, i ≠ j →
        (e.blocks i).stop ≤ (e.blocks j).begin ∨ (e.blocks j).stop ≤ (e.blocks i).begin) ∧
    ∀ x, PoolCall e.blocks x →
      ∃ e' r, e.call x = some (e', r) ∧ e.checkedBlocks x = some e'.blocks := by
  have hv : e.Valid := h.invariant PoolStep.valid (init_valid ram t)
  refine ⟨?_, fun x hx => ?_⟩
  · obtain ⟨l, hw⟩ := hv
    exact ⟨l, hw, hw.nodup, fun i hi j hj hne =>
      hw.disjoint (List.mem_cons_of_mem _ hi) (List.mem_cons_of_mem _ hj) hne⟩
  · obtain ⟨ha, hc⟩ := hx.allowed
    obtain ⟨e', r, hcall, -, -⟩ := call_ok hv ha hc
    exact ⟨e', r, hcall, checkedBlocks_ok hv hx hcall⟩

/-- One block taken, cut down, and freed twice. -/
theorem pool_invariant_example : ∃ e, Run PoolStep (init (fun _ => 0) [])
      [(.allocBlock 10, .handle 1), (.resizeBlock 1 4, .done), (.freeBlock 1, .done),
        (.freeBlock 1, .done)] e ∧
    ∃ l, Wf e.blocks l := by
  have hcompute : ((init (fun _ => 0) []).call (.allocBlock 10)).bind (fun p =>
      (p.1.call (.resizeBlock 1 4)).bind fun q => (q.1.call (.freeBlock 1)).bind fun s =>
        (s.1.call (.freeBlock 1)).map fun u =>
          (p.2, q.2, s.2, u.2, decide (Live p.1.blocks 1 ∧ 4 < (p.1.blocks 1).size))) =
      some (.handle 1, .done, .done, .done, true) := by decide
  obtain ⟨⟨e₁, r₁⟩, h₁, h⟩ := Option.bind_eq_some_iff.mp hcompute
  obtain ⟨⟨e₂, r₂⟩, h₂, h⟩ := Option.bind_eq_some_iff.mp h
  obtain ⟨⟨e₃, r₃⟩, h₃, h⟩ := Option.bind_eq_some_iff.mp h
  obtain ⟨⟨e, r⟩, h₄, h⟩ := Option.map_eq_some_iff.mp h
  simp only [Prod.mk.injEq, decide_eq_true_eq] at h
  obtain ⟨rfl, rfl, rfl, rfl, hl, hp⟩ := h
  have hrun : Run PoolStep (init (fun _ => 0) [])
      [(.allocBlock 10, .handle 1), (.resizeBlock 1 4, .done), (.freeBlock 1, .done),
        (.freeBlock 1, .done)] e :=
    .snoc (.snoc (.snoc (.snoc .nil ⟨.allocBlock (by decide), h₁⟩) ⟨.resizeBlock hl hp, h₂⟩)
      ⟨.freeBlock, h₃⟩) ⟨.freeBlock, h₄⟩
  obtain ⟨⟨l, hw, -⟩, -⟩ := pool_invariant hrun
  exact ⟨e, hrun, l, hw⟩

end UIPEthernet.Enc28J60Network
