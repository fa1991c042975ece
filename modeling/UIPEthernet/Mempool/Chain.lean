import UIPEthernet.Mempool.Operations

/-!
# The chain of a pool whose blocks may overlap

A block that is resized beyond what it was allocated with overlaps the next one,
and the sizes of the gaps mean nothing any more. The chain does not break: every
function keeps it, whatever the addresses are.
-/

namespace UIPEthernet.MemoryPool

open Lib

/-- The table chains exactly the descriptors in use, each once. -/
structure Chain (b : Blocks) (l : List Handle) : Prop where
  linked : Linked (fun h => (b h).nextblock) NOBLOCK POOLSTART l
  nodup : (POOLSTART :: l).Nodup
  live : ∀ h, h ∈ l ↔ POOLOFFSET ≤ h ∧ h ≤ MEMPOOL_NUM_MEMBLOCKS ∧ 0 < (b h).size

def Chained (b : Blocks) : Prop := ∃ l, Chain b l

variable {b b' : Blocks} {l A B : List Handle} {c h n x : Handle} {size fuel : Nat} {σ : Type} {s s' : σ}
  {mv : Nat → Nat → Nat → σ → Option σ}

theorem Wf.chained (hw : Wf b l) : Chained b := ⟨l, hw.linked, hw.nodup, hw.live⟩

theorem Chain.length_lt (hc : Chain b l) : l.length < WALK_LIMIT := by
  have hsub : l.Subperm (List.range' POOLOFFSET MEMPOOL_NUM_MEMBLOCKS) :=
    (List.nodup_cons.mp hc.nodup).2.subperm fun h hh =>
      mem_descriptors.mpr ⟨((hc.live h).mp hh).1, ((hc.live h).mp hh).2.1⟩
  have hle := hsub.length_le
  rw [List.length_range'] at hle
  exact Nat.lt_of_le_of_lt hle (by decide)

/-- Neither the chain nor what is in use has changed. -/
theorem Chain.congr (hc : Chain b l) (hnext : ∀ h, (b' h).nextblock = (b h).nextblock)
    (hlive : ∀ h ∈ List.range' POOLOFFSET MEMPOOL_NUM_MEMBLOCKS, 0 < (b' h).size ↔ 0 < (b h).size) : Chain b' l := by
  refine ⟨hc.linked.congr fun h _ => hnext h, hc.nodup, fun h => (hc.live h).trans ?_⟩
  constructor
  · rintro ⟨h1, h2, h3⟩
    exact ⟨h1, h2, (hlive h (mem_descriptors.mpr ⟨h1, h2⟩)).mpr h3⟩
  · rintro ⟨h1, h2, h3⟩
    exact ⟨h1, h2, (hlive h (mem_descriptors.mpr ⟨h1, h2⟩)).mp h3⟩

-- ---------------------------------------------------------------------------
-- allocBlock
-- ---------------------------------------------------------------------------

/-- The search finds nothing but blocks of the chain. -/
theorem search_mem {S : List Handle} {best r : Option Handle} {bestsize : Nat}
    (hl : Linked (fun h => (b h).nextblock) NOBLOCK x B) (hS : ∀ h ∈ x :: B, h ∈ S) (hbest : ∀ h ∈ best, h ∈ S)
    (h : search b size fuel x best bestsize = some r) : ∀ h ∈ r, h ∈ S := by
  induction fuel generalizing x B best bestsize with
  | zero => cases h
  | succ fuel ih =>
    rw [search] at h
    simp only at h
    have hx : ∀ h ∈ some x, h ∈ S := by
      rintro h ⟨⟩
      exact hS x List.mem_cons_self
    have hbetter : ∀ h ∈ (if size < freesize b x ∧ freesize b x < bestsize then some x else best), h ∈ S := by
      split
      · exact hx
      · exact hbest
    split at h
    · cases h
      exact hx
    · split at h
      · cases h
        exact hbetter
      · rename_i hmore
        cases B with
        | nil => exact absurd hl hmore
        | cons y B =>
          obtain ⟨hy, -, ht⟩ := hl
          have hy : (b x).nextblock = y := hy
          rw [hy] at h
          exact ih ht (fun h hh => hS h (List.mem_cons_of_mem x hh)) hbetter h

/-- Compaction changes addresses only. -/
theorem collect_chain {last : Handle} (hl : Linked (fun h => (b h).nextblock) NOBLOCK x B)
    (h : collect mv fuel x b s = some (b', s', last)) :
    (∀ h, (b' h).nextblock = (b h).nextblock ∧ (b' h).size = (b h).size) ∧ last ∈ x :: B := by
  induction fuel generalizing x B b s with
  | zero => cases h
  | succ fuel ih =>
    rw [collect] at h
    simp only at h
    split at h
    · cases h
      exact ⟨fun _ => ⟨rfl, rfl⟩, List.mem_cons_self⟩
    · rename_i hmore
      cases B with
      | nil => exact absurd hl hmore
      | cons y B =>
        obtain ⟨hy, -, ht⟩ := hl
        have hy : (b x).nextblock = y := hy
        rw [hy] at h
        split at h
        · obtain ⟨s₁, -, h⟩ := Option.bind_eq_some_iff.mp h
          have hmoved : ∀ h, (Function.update b y { b y with begin := add16 (b x).begin (b x).size } h).nextblock = (b h).nextblock ∧
              (Function.update b y { b y with begin := add16 (b x).begin (b x).size } h).size = (b h).size := by
            intro h
            by_cases hh : h = y
            · rw [hh, Function.update_self]
              exact ⟨rfl, rfl⟩
            · rw [Function.update_of_ne hh]
              exact ⟨rfl, rfl⟩
          obtain ⟨hsame, hlast⟩ := ih (ht.congr fun h _ => (hmoved h).1) h
          exact ⟨fun h => ⟨(hsame h).1.trans (hmoved h).1, (hsame h).2.trans (hmoved h).2⟩, List.mem_cons_of_mem x hlast⟩
        · obtain ⟨hsame, hlast⟩ := ih ht h
          exact ⟨hsame, List.mem_cons_of_mem x hlast⟩

theorem found_chained (hc : Chain b l) (hmem : c ∈ POOLSTART :: l) (hsize : 1 ≤ size) : Chained (found b c size).1 := by
  cases hu : unused b with
  | none =>
    simp only [found, hu]
    exact ⟨l, hc⟩
  | some cur =>
    obtain ⟨hcur1, hcur2, hzero⟩ := unused_ok hu
    have hcur0 : cur ≠ POOLSTART := fun h0 => absurd hcur1 (h0 ▸ by decide)
    have hnot : cur ∉ POOLSTART :: l := by
      rw [List.mem_cons, not_or]
      exact ⟨hcur0, fun hm => absurd ((hc.live cur).mp hm).2.2 (hzero ▸ Nat.lt_irrefl 0)⟩
    have hne : c ≠ cur := fun he => hnot (he ▸ hmem)
    obtain ⟨A, B, hs⟩ := List.append_of_mem hmem
    simp only [found, hu]
    generalize hb₁ : Function.update b cur ⟨add16 (b c).begin (b c).size, size, (b c).nextblock⟩ = b₁
    generalize hb₂ : Function.update b₁ c { b₁ c with nextblock := cur } = b₂
    have hnew : b₂ cur = ⟨add16 (b c).begin (b c).size, size, (b c).nextblock⟩ := by
      rw [← hb₂, Function.update_of_ne hne.symm, ← hb₁, Function.update_self]
    have hpred : b₂ c = { b c with nextblock := cur } := by
      rw [← hb₂, Function.update_self, ← hb₁, Function.update_of_ne hne]
    have hother : ∀ h, h ≠ cur → h ≠ c → b₂ h = b h := by
      intro h h1 h2
      rw [← hb₂, Function.update_of_ne h2, ← hb₁, Function.update_of_ne h1]
    have hkept : ∀ h, h ≠ cur → (b₂ h).size = (b h).size := by
      intro h h1
      by_cases h2 : h = c
      · rw [h2, hpred]
      · rw [hother h h1 h2]
    have hlinked : Linked (fun h => (b₂ h).nextblock) NOBLOCK POOLSTART (A ++ c :: cur :: B).tail := by
      have hnext : (b₂ cur).nextblock = (b c).nextblock := by rw [hnew]
      refine hc.linked.insert hs hc.nodup hcur0 (congrArg Memblock.nextblock hpred) hnext fun z hz hzc => ?_
      exact congrArg Memblock.nextblock (hother z (fun he => hnot (he ▸ hz)) hzc)
    have hnodup : (POOLSTART :: (A ++ c :: cur :: B).tail).Nodup := by
      rw [cons_tail hs]
      have hsub := hc.nodup
      rw [hs] at hsub hnot
      have hperm : (A ++ c :: cur :: B).Perm (cur :: (A ++ c :: B)) := by
        have hmid : ((A ++ [c]) ++ cur :: B).Perm (cur :: ((A ++ [c]) ++ B)) := List.perm_middle
        simpa using hmid
      exact hperm.nodup_iff.mpr (List.nodup_cons.mpr ⟨hnot, hsub⟩)
    refine ⟨_, hlinked, hnodup, fun h => ?_⟩
    rw [mem_insert_tail hs, hc.live h]
    by_cases hh : h = cur
    · rw [hh, hnew]
      exact ⟨fun _ => ⟨hcur1, hcur2, hsize⟩, fun _ => .inl rfl⟩
    · rw [hkept h hh]
      exact ⟨fun hor => hor.resolve_left hh, .inr⟩

theorem allocBlock_chained (hc : Chained b) (hsize : 1 ≤ size) (h : allocBlock mv b s size = some (b', s', n)) :
    Chained b' := by
  obtain ⟨l, hc⟩ := hc
  simp only [allocBlock, Option.bind_eq_bind] at h
  obtain ⟨r, hsearch, h⟩ := Option.bind_eq_some_iff.mp h
  have hmem := search_mem (S := POOLSTART :: l) hc.linked (fun _ hh => hh) (fun _ hh => absurd hh (Option.not_mem_none _)) hsearch
  cases r with
  | some best =>
    cases h
    exact found_chained hc (hmem best rfl) hsize
  | none =>
    obtain ⟨⟨b₁, s₁, last⟩, hcollect, h⟩ := Option.bind_eq_some_iff.mp h
    obtain ⟨hsame, hlast⟩ := collect_chain hc.linked hcollect
    have hc₁ : Chain b₁ l := hc.congr (fun h => (hsame h).1) fun h _ => by rw [(hsame h).2]
    simp only at h
    split at h
    · cases h
      exact found_chained hc₁ hlast hsize
    · cases h
      exact ⟨l, hc₁⟩

-- ---------------------------------------------------------------------------
-- freeBlock, resizeBlock
-- ---------------------------------------------------------------------------

/-- `freeBlock` comes back. -/
theorem freeBlock_chained (hc : Chained b) (n : Handle) : ∃ b', freeBlock b n = some b' ∧ Chained b' := by
  obtain ⟨l, hc⟩ := hc
  by_cases hn : n = NOBLOCK
  · exact ⟨b, if_pos hn, l, hc⟩
  · obtain ⟨hout, hin⟩ := unlink_ok hc.linked hc.nodup hn hc.length_lt
    by_cases hm : n ∈ l
    · obtain ⟨A, c, D, b', hs, hu, he⟩ := hin hm
      have hkept : ∀ j ≠ n, (b' j).size = (b j).size := by
        intro j hj
        by_cases hjc : j = c
        · rw [hjc, he.pred]
        · rw [he.other j hj hjc]
      refine ⟨b', (if_neg hn).trans hu, (A ++ c :: D).tail, ?_, ?_, fun h => ?_⟩
      · have hnext : (b' c).nextblock = (b n).nextblock := by rw [he.pred]
        exact hc.linked.erase hs hc.nodup hnext fun z _ hzc hzn => congrArg Memblock.nextblock (he.other z hzn hzc)
      · rw [cons_tail hs]
        have hnodup := hc.nodup
        rw [hs] at hnodup
        exact hnodup.sublist (by simp)
      · rw [mem_erase_tail hc.nodup hs, hc.live h]
        by_cases hh : h = n
        · rw [hh, he.gone]
          exact ⟨fun hand => absurd rfl hand.2, fun hlive => absurd hlive.2.2 (Nat.lt_irrefl 0)⟩
        · rw [hkept h hh]
          exact ⟨And.left, fun hlive => ⟨hlive, hh⟩⟩
    · exact ⟨b, (if_neg hn).trans (hout hm), l, hc⟩

theorem resizeBlockTo_chained (hc : Chained b) (hn : 0 < (b n).size) (hsize : 1 ≤ size) (position : Nat) :
    Chained (resizeBlockTo b n position size) := by
  obtain ⟨l, hc⟩ := hc
  refine ⟨l, hc.congr (fun h => ?_) fun h _ => ?_⟩
  · by_cases hh : h = n
    · rw [hh, resizeBlockTo, Function.update_self]
    · rw [resizeBlockTo, Function.update_of_ne hh]
  · by_cases hh : h = n
    · rw [hh, resizeBlockTo, Function.update_self]
      exact ⟨fun _ => hn, fun _ => hsize⟩
    · rw [resizeBlockTo, Function.update_of_ne hh]

end UIPEthernet.MemoryPool
