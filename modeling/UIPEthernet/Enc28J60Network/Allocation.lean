import UIPEthernet.Enc28J60Network.PoolInvariant

/-!
# What allocBlock finds

A gap is a range of the pool between two neighbouring blocks, or between a
block and an end of the pool. `allocBlock` succeeds exactly where the bytes of
all gaps together suffice and a descriptor is unused, it takes a best fit where
one gap suffices, and it moves blocks only where none does.
-/

namespace UIPEthernet

open Lib

namespace MemoryPool

/-- The `n` free bytes from the address `a` on, up to the next block. -/
structure Gap (b : Blocks) (a n : Nat) : Prop where
  first : a = MEMPOOL_STARTADDRESS ∨ ∃ h, Live b h ∧ (b h).stop = a
  last : a + n = POOLEND ∨ ∃ h, Live b h ∧ (b h).begin = a + n
  free : ∀ h, Live b h → (b h).stop ≤ a ∨ a + n ≤ (b h).begin

/-- A gap that holds `size` bytes, and no shorter one does. -/
structure BestFit (b : Blocks) (size a n : Nat) : Prop where
  gap : Gap b a n
  fits : size ≤ n
  least : ∀ a' n', Gap b a' n' → size ≤ n' → n ≤ n'

/-- The blocks of `b` are there in `b'`, as large as they were and in the same
order. -/
structure Kept (b b' : Blocks) : Prop where
  live : ∀ h, Live b h → Live b' h
  size : ∀ h, Live b h → (b' h).size = (b h).size
  order : ∀ i j, Live b i → Live b j → ((b' i).begin < (b' j).begin ↔ (b i).begin < (b j).begin)

variable {b b' : Blocks} {l l' A B : List Handle} {c h i j : Handle} {size a n m : Nat}

-- ---------------------------------------------------------------------------
-- Gaps
-- ---------------------------------------------------------------------------

theorem Wf.gap_behind (hw : Wf b l) (hc : c ∈ POOLSTART :: l) : Gap b (b c).stop (freesize b c) := by
  obtain ⟨A, B, hs⟩ := List.append_of_mem hc
  obtain ⟨hle, -⟩ := hw.limit_bounds hs
  have hend : (b c).stop + freesize b c = limit b B := by
    rw [hw.freesize_eq hs]
    omega
  refine ⟨?_, ?_, fun h hh => ?_⟩
  · rcases List.mem_cons.mp hc with rfl | hc
    · exact .inl hw.start_stop
    · exact .inr ⟨c, hw.mem_iff.mp hc, rfl⟩
  · rw [hend]
    cases B with
    | nil => exact .inl rfl
    | cons y B => exact .inr ⟨y, hw.mem_iff.mp (Wf.mem_after hs List.mem_cons_self), rfl⟩
  · rw [hend]
    have hmem : h ∈ A ++ c :: B := hs ▸ List.mem_cons_of_mem _ (hw.mem_iff.mpr hh)
    rcases List.mem_append.mp hmem with hA | hB
    · exact .inl (((hw.around hs).1 h hA).trans (Nat.le_add_right _ _))
    · rcases List.mem_cons.mp hB with rfl | hB
      · exact .inl (Nat.le_refl _)
      · exact .inr (hw.limit_le hs h hB)

/-- A gap is known by its start. -/
theorem Wf.gap_unique (hw : Wf b l) (hn : Gap b a n) (hm : Gap b a m) : n = m := by
  -- The end of the shorter one would lie in the longer one.
  have hle : ∀ {n m}, Gap b a n → Gap b a m → m ≤ n := by
    intro n m hn hm
    have hinside : a + m ≤ POOLEND := by
      rcases hm.last with hend | ⟨h, hh, hbegin⟩
      · exact Nat.le_of_eq hend
      · have hbound := hw.bounded h (hw.mem_iff.mpr hh)
        rw [Memblock.stop] at hbound
        omega
    rcases hn.last with hend | ⟨h, hh, hbegin⟩
    · omega
    · have hpos := hh.2.2
      rcases hm.free h hh with hbelow | habove
      · rw [Memblock.stop] at hbelow
        omega
      · omega
  exact Nat.le_antisymm (hle hm hn) (hle hn hm)

theorem Wf.gap_iff (hw : Wf b l) : Gap b a n ↔ ∃ c ∈ POOLSTART :: l, (b c).stop = a ∧ freesize b c = n := by
  constructor
  · intro hg
    obtain ⟨c, hc, rfl⟩ : ∃ c ∈ POOLSTART :: l, (b c).stop = a := by
      rcases hg.first with rfl | ⟨h, hh, hstop⟩
      · exact ⟨POOLSTART, List.mem_cons_self, hw.start_stop⟩
      · exact ⟨h, List.mem_cons_of_mem _ (hw.mem_iff.mpr hh), hstop⟩
    exact ⟨c, hc, rfl, hw.gap_unique (hw.gap_behind hc) hg⟩
  · rintro ⟨c, hc, rfl, rfl⟩
    exact hw.gap_behind hc

theorem Wf.bestFit (hw : Wf b l) (hs : Searched b size (POOLSTART :: l) (some c)) :
    BestFit b size (b c).stop (freesize b c) := by
  obtain ⟨hc, hfit, hmin⟩ := hs
  refine ⟨hw.gap_behind hc, hfit, fun a' n' hg hn' => ?_⟩
  obtain ⟨d, hd, -, rfl⟩ := hw.gap_iff.mp hg
  exact hmin d hd hn'

-- ---------------------------------------------------------------------------
-- The blocks around
-- ---------------------------------------------------------------------------

theorem Wf.kept (hw : Wf b l) (hw' : Wf b' l') (hsub : l.Sublist l') (hsize : ∀ h ∈ l, (b' h).size = (b h).size) :
    Kept b b' where
  live h hh := hw'.mem_iff.mp (hsub.subset (hw.mem_iff.mpr hh))
  size h hh := hsize h (hw.mem_iff.mpr hh)
  order i j hi hj := by
    let R i j := ((b i).stop ≤ (b j).begin ∧ (b' i).stop ≤ (b' j).begin) ∨
      ((b j).stop ≤ (b i).begin ∧ (b' j).stop ≤ (b' i).begin)
    have : Std.Symm R := ⟨fun _ _ h => Or.symm h⟩
    have hboth : l.Pairwise R :=
      ((List.pairwise_cons.mp hw.ordered).2.and ((List.pairwise_cons.mp hw'.ordered).2.sublist hsub)).imp Or.inl
    by_cases hij : i = j
    · subst hij
      exact iff_of_false (Nat.lt_irrefl _) (Nat.lt_irrefl _)
    · have hi' := hsize i (hw.mem_iff.mpr hi)
      have hj' := hsize j (hw.mem_iff.mpr hj)
      have hposi := hi.2.2
      have hposj := hj.2.2
      have hR : R i j := List.Pairwise.forall hboth (hw.mem_iff.mpr hi) (hw.mem_iff.mpr hj) hij
      simp only [R, Memblock.stop] at hR
      omega

theorem sublist_insert (hs : POOLSTART :: l = A ++ c :: B) : l.Sublist (A ++ c :: h :: B).tail := by
  have hsub : (POOLSTART :: l).Sublist (POOLSTART :: (A ++ c :: h :: B).tail) := by
    rw [cons_tail hs, hs]
    exact (((List.Sublist.refl B).cons h).cons_cons c).append_left A
  exact List.cons_sublist_cons.mp hsub

theorem Allocated.kept {σ : Type} {R : Blocks → σ → Blocks → σ → Prop} {s s' : σ} (hw : Wf b l) (hsize : 1 ≤ size)
    (h : Allocated R b l s size b' s' i) :
    Kept b b' ∧ (i ≠ NOBLOCK ↔ CanAlloc b size) ∧ (i ≠ NOBLOCK → ¬Live b i ∧ Live b' i ∧ (b' i).size = size) := by
  cases h with
  | exhausted _ hsame hw' cannot =>
    exact ⟨hw.kept hw' (List.Sublist.refl l) fun h _ => hsame h, iff_of_false (fun h => h rfl) cannot, fun h => absurd rfl h⟩
  | placed _ hsame hw₁ hs hfit hfresh hins can =>
    have hw' := hw₁.insert hs hfresh hsize hfit hins
    have hnew := hw'.mem_iff.mp ((mem_insert_tail hs).mpr (.inl rfl))
    have hnot : i ∉ l := fun hi => hw₁.unused_notMem hfresh (List.mem_cons_of_mem _ hi)
    refine ⟨hw.kept hw' (sublist_insert hs) fun h hh => ?_, iff_of_true (Nat.ne_of_gt hnew.1) can, fun _ => ⟨?_, hnew, ?_⟩⟩
    · rw [(hins.stays (ne_of_mem_of_not_mem hh hnot)).2, hsame]
    · exact fun hl => hnot (hw.mem_iff.mpr hl)
    · rw [hins.new]

/-- With a gap that is large enough the search succeeds, and nothing moves. -/
theorem allocBlock_fits {σ : Type} (mv : Nat → Nat → Nat → σ → Option σ) (hw : Wf b l) (s : σ)
    (hroom : ∃ a n, Gap b a n ∧ size ≤ n) :
    ∃ best, best ∈ POOLSTART :: l ∧ BestFit b size (b best).stop (freesize b best) ∧
      allocBlock mv b s size = some ((found b best size).1, s, (found b best size).2) := by
  obtain ⟨a, n, hg, hn⟩ := hroom
  obtain ⟨d, hd, -, rfl⟩ := hw.gap_iff.mp hg
  obtain ⟨r, hr, hsearched⟩ := hw.searched size
  cases r with
  | none => exact absurd (hsearched d hd) (Nat.not_lt.mpr hn)
  | some best => exact ⟨best, hsearched.1, hw.bestFit hsearched, by simp [allocBlock, hr]⟩

theorem found_stays (hw : Wf b l) (hc : c ∈ POOLSTART :: l) (size : Nat) :
    (∀ h, Live b h → ((found b c size).1 h).begin = (b h).begin) ∧
    ((found b c size).2 ≠ NOBLOCK → ((found b c size).1 (found b c size).2).begin = (b c).stop) := by
  cases hu : unused b with
  | none =>
    have hf : found b c size = (b, NOBLOCK) := by simp [found, hu]
    rw [hf]
    exact ⟨fun _ _ => rfl, fun h => absurd rfl h⟩
  | some cur =>
    obtain ⟨hcur, hins⟩ := hw.found_inserted hc hu size
    rw [hcur]
    refine ⟨fun h hh => (hins.stays ?_).1, fun _ => by rw [hins.new]⟩
    rintro rfl
    exact hw.unused_notMem hu (List.mem_cons_of_mem _ (hw.mem_iff.mpr hh))

theorem unused_isSome_iff : (unused b).isSome ↔ ∃ h, POOLOFFSET ≤ h ∧ h ≤ MEMPOOL_NUM_MEMBLOCKS ∧ (b h).size = 0 := by
  rw [unused, List.find?_isSome]
  simp only [mem_descriptors, decide_eq_true_eq, and_assoc]

end MemoryPool

namespace Enc28J60Network

open MemoryPool

variable {e : Enc28J60Network} {size : Nat}

/-- In every state that the pool can reach `allocBlock` ends. It returns a
block exactly where the free bytes suffice and a descriptor is unused; where
one gap suffices it takes a best fit and moves nothing; and in every case the
other blocks keep their sizes and their order. -/
theorem allocBlock_complete {ram : Nat → Byte} {t : List Transmission} {es : List (Call × Result)}
    (hrun : Run PoolStep (init ram t) es e) (hsize : 1 ≤ size) :
    ∃ e' h, e.allocBlock size = some (e', h) ∧
      (h ≠ NOBLOCK ↔ inUse e.blocks + size ≤ MEMPOOL_SIZE ∧
        ∃ i, POOLOFFSET ≤ i ∧ i ≤ MEMPOOL_NUM_MEMBLOCKS ∧ (e.blocks i).size = 0) ∧
      (h ≠ NOBLOCK → ¬Live e.blocks h ∧ Live e'.blocks h ∧ (e'.blocks h).size = size) ∧
      ((∃ a n, Gap e.blocks a n ∧ size ≤ n) →
        (∀ i, Live e.blocks i → (e'.blocks i).begin = (e.blocks i).begin) ∧
        (h ≠ NOBLOCK → ∃ n, BestFit e.blocks size (e'.blocks h).begin n)) ∧
      Kept e.blocks e'.blocks := by
  obtain ⟨l, hw⟩ := hrun.invariant PoolStep.valid (init_valid ram t)
  obtain ⟨b', ram', h, halloc, hres⟩ := MemoryPool.allocBlock_ok carried_same hw e.ram size
  obtain ⟨hkept, hcan, hnew⟩ := hres.kept hw hsize
  refine ⟨{ e with blocks := b', ram := ram' }, h, by simp [allocBlock, halloc], ?_, hnew, fun hroom => ?_, hkept⟩
  · rw [hcan, CanAlloc, unused_isSome_iff]
  · obtain ⟨best, hbest, hfit, halloc'⟩ := allocBlock_fits mempoolBlockMoveCallback hw e.ram hroom
    obtain ⟨rfl, hrest⟩ := Prod.mk.inj (Option.some.inj (halloc.symm.trans halloc'))
    obtain ⟨-, rfl⟩ := Prod.mk.inj hrest
    obtain ⟨hstay, hbegin⟩ := found_stays hw hbest size
    exact ⟨hstay, fun hh => ⟨_, hbegin hh ▸ hfit⟩⟩

/-- Two blocks are taken, the first one is given back, and a third fills its
gap. -/
theorem allocBlock_complete_example : ∃ e e' h, Run PoolStep (init (fun _ => 0) [])
      [(.allocBlock 10, .handle 1), (.allocBlock 4, .handle 2), (.freeBlock 1, .done)] e ∧
    e.allocBlock 10 = some (e', h) ∧ Kept e.blocks e'.blocks := by
  have hcompute : ((init (fun _ => 0) []).call (.allocBlock 10)).bind (fun p =>
      (p.1.call (.allocBlock 4)).bind fun q => (q.1.call (.freeBlock 1)).map fun s => (p.2, q.2, s.2)) =
      some (.handle 1, .handle 2, .done) := by decide
  obtain ⟨⟨e₁, r₁⟩, h₁, h⟩ := Option.bind_eq_some_iff.mp hcompute
  obtain ⟨⟨e₂, r₂⟩, h₂, h⟩ := Option.bind_eq_some_iff.mp h
  obtain ⟨⟨e, r⟩, h₃, h⟩ := Option.map_eq_some_iff.mp h
  simp only [Prod.mk.injEq] at h
  obtain ⟨rfl, rfl, rfl⟩ := h
  have hrun : Run PoolStep (init (fun _ => 0) [])
      [(.allocBlock 10, .handle 1), (.allocBlock 4, .handle 2), (.freeBlock 1, .done)] e :=
    .snoc (.snoc (.snoc .nil ⟨.allocBlock (by decide), h₁⟩) ⟨.allocBlock (by decide), h₂⟩) ⟨.freeBlock, h₃⟩
  obtain ⟨e', h, halloc, -, -, -, hkept⟩ := allocBlock_complete hrun (show 1 ≤ 10 by decide)
  exact ⟨e, e', h, hrun, halloc, hkept⟩

end Enc28J60Network

end UIPEthernet
