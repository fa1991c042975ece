import UIPEthernet.Mempool.Invariant
import Mathlib.Algebra.BigOperators.Group.List.Basic

/-!
# The operations keep the invariant

Each operation of the pool on a table `Wf b l` ends, and its result is `Wf`
again. What `allocBlock` does to the memory behind the table depends on the
hook it calls while compacting; the lemmas take any reflexive and transitive
relation `R` that holds across one move.
-/

namespace UIPEthernet.MemoryPool

open Lib

variable {b b' : Blocks} {l A B : List Handle} {c h x y : Handle} {size fuel : Nat}

/-- Begins and sizes changed, the chain kept. -/
theorem Wf.reshape (hw : Wf b l) (hstart : b' POOLSTART = b POOLSTART)
    (hnext : ∀ h, (b' h).nextblock = (b h).nextblock)
    (hpos : ∀ h, 0 < (b' h).size ↔ 0 < (b h).size)
    (hord : (POOLSTART :: l).Pairwise fun i j => (b' i).stop ≤ (b' j).begin)
    (hbound : ∀ h ∈ l, (b' h).stop ≤ POOLEND) : Wf b' l where
  start := by rw [hstart]; exact hw.start
  linked := hw.linked.congr fun z _ => hnext z
  live h := by rw [hpos]; exact hw.live h
  ordered := hord
  bounded := hbound

-- ---------------------------------------------------------------------------
-- Compaction
-- ---------------------------------------------------------------------------

/-- Block `y` moved down to the end of block `c`. -/
def moveDown (b : Blocks) (c y : Handle) : Blocks :=
  Function.update b y { b y with begin := (b c).stop }

theorem moveDown_self : moveDown b c y y = { b y with begin := (b c).stop } := by simp [moveDown]

theorem moveDown_of_ne (hh : h ≠ y) : moveDown b c y h = b h := by simp [moveDown, hh]

@[simp] theorem moveDown_size : (moveDown b c y h).size = (b h).size := by
  by_cases hh : h = y
  · subst hh; simp [moveDown_self]
  · rw [moveDown_of_ne hh]

@[simp] theorem moveDown_nextblock : (moveDown b c y h).nextblock = (b h).nextblock := by
  by_cases hh : h = y
  · subst hh; simp [moveDown_self]
  · rw [moveDown_of_ne hh]

theorem Wf.moveDown (hw : Wf b l) (hs : POOLSTART :: l = A ++ c :: y :: B) :
    Wf (moveDown b c y) l := by
  have hs' : POOLSTART :: l = (A ++ [c]) ++ y :: B := by simp [hs]
  have hcy := (hw.around hs).2 y (by simp)
  have hy : y ∈ l := Wf.mem_after hs (by simp)
  have hmy : (MemoryPool.moveDown b c y y).stop ≤ (b y).stop := by
    rw [moveDown_self]; simp only [Memblock.stop] at hcy ⊢; omega
  refine hw.reshape (moveDown_of_ne (hw.ne_start hy).symm) (fun _ => moveDown_nextblock)
    (fun _ => by rw [moveDown_size]) ?_ ?_
  · have hnd := hw.nodup
    have hord := hw.ordered
    rw [hs'] at hnd hord ⊢
    have hyB : ∀ d ∈ B, d ≠ y := fun d hd he => by
      have := (List.nodup_append.mp hnd).2.1
      exact (List.nodup_cons.mp this).1 (he ▸ hd)
    have hyA : ∀ a ∈ A ++ [c], a ≠ y := fun a ha he =>
      (List.nodup_append.mp hnd).2.2 a ha y (by simp) he
    rw [List.pairwise_append, List.pairwise_cons] at hord ⊢
    obtain ⟨h1, ⟨h2, h3⟩, h4⟩ := hord
    refine ⟨h1.imp_of_mem fun hi hj hij => ?_, ⟨fun d hd => ?_, h3.imp_of_mem fun hi hj hij => ?_⟩,
      fun a ha d hd => ?_⟩
    · rwa [moveDown_of_ne (hyA _ hi), moveDown_of_ne (hyA _ hj)]
    · rw [moveDown_of_ne (hyB d hd)]; exact Nat.le_trans hmy (h2 d hd)
    · rwa [moveDown_of_ne (hyB _ hi), moveDown_of_ne (hyB _ hj)]
    · rw [moveDown_of_ne (hyA a ha)]
      rcases List.mem_cons.mp hd with rfl | hd
      · rw [moveDown_self]
        rcases List.mem_append.mp ha with ha | ha
        · have := (hw.around hs).1 a ha
          simp only [Memblock.stop] at this ⊢; omega
        · rw [List.mem_singleton.mp ha]
      · rw [moveDown_of_ne (hyB d hd)]; exact h4 a ha d (by simp [hd])
  · intro h hh
    by_cases he : h = y
    · subst he; exact Nat.le_trans hmy (hw.bounded h hh)
    · rw [moveDown_of_ne he]; exact hw.bounded h hh

-- ---------------------------------------------------------------------------
-- What the pool has left
-- ---------------------------------------------------------------------------

/-- The sum of the sizes of the blocks in `l`. -/
def total (b : Blocks) (l : List Handle) : Nat := (l.map fun h => (b h).size).sum

theorem total_cons : total b (y :: l) = (b y).size + total b l := by simp [total]

theorem total_congr (hsize : ∀ h, (b' h).size = (b h).size) : total b' l = total b l := by
  simp only [total, hsize]

/-- The sum of the sizes over the whole table. -/
def inUse (b : Blocks) : Nat := total b (List.range' POOLOFFSET MEMPOOL_NUM_MEMBLOCKS)

theorem total_filter (b : Blocks) (r : List Handle) :
    total b (r.filter fun h => 0 < (b h).size) = total b r := by
  induction r with
  | nil => rfl
  | cons y r ih =>
    by_cases hy : 0 < (b y).size
    · rw [List.filter_cons_of_pos (by simpa using hy), total_cons, total_cons, ih]
    · rw [List.filter_cons_of_neg (by simpa using hy), total_cons, ih]
      omega

theorem Wf.inUse_eq (hw : Wf b l) : inUse b = total b l := by
  have hperm : l.Perm ((List.range' POOLOFFSET MEMPOOL_NUM_MEMBLOCKS).filter
      fun h => 0 < (b h).size) := by
    refine (List.perm_ext_iff_of_nodup (List.nodup_cons.mp hw.nodup).2
      (List.Nodup.filter _ List.nodup_range')).mpr fun h => ?_
    rw [hw.live h, List.mem_filter, mem_descriptors, decide_eq_true_eq, and_assoc]
  rw [inUse, ← total_filter]
  exact ((hperm.map _).sum_eq).symm

theorem Wf.length_le (hw : Wf b l) : l.length ≤ MEMPOOL_NUM_MEMBLOCKS := by
  have hsub : l ⊆ List.range' POOLOFFSET MEMPOOL_NUM_MEMBLOCKS := by
    intro h hh
    obtain ⟨h1, h2, -⟩ := (hw.live h).mp hh
    exact mem_descriptors.mpr ⟨h1, h2⟩
  simpa using ((List.nodup_cons.mp hw.nodup).2.subperm hsub).length_le

/-- Blocks and gaps from a block on fill the pool. -/
theorem Wf.fill (hw : Wf b l) (hs : POOLSTART :: l = A ++ c :: B) :
    (b c).stop + total b B + ((c :: B).map (freesize b)).sum = POOLEND := by
  induction B generalizing A c with
  | nil =>
    obtain ⟨hle, -⟩ := hw.limit_bounds hs
    have hfree := hw.freesize_eq hs
    simp only [limit] at hle hfree
    simp only [total, List.map_nil, List.sum_nil, List.map_cons, List.sum_cons]
    omega
  | cons y B ih =>
    have h := ih (A := A ++ [c]) (c := y) (by simp [hs])
    obtain ⟨hle, -⟩ := hw.limit_bounds hs
    have hfree := hw.freesize_eq hs
    simp only [limit] at hle hfree
    simp only [List.map_cons, List.sum_cons, total_cons] at h ⊢
    simp only [Memblock.stop] at h hle hfree ⊢
    omega

theorem Wf.inUse_freesize (hw : Wf b l) (hc : c ∈ POOLSTART :: l) :
    inUse b + freesize b c ≤ MEMPOOL_SIZE := by
  have hfill := hw.fill (A := []) (B := l) rfl
  have hle : freesize b c ≤ ((POOLSTART :: l).map (freesize b)).sum :=
    List.single_le_sum (fun _ _ => Nat.zero_le _) _ (List.mem_map_of_mem hc)
  rw [hw.start_stop, POOLEND] at hfill
  rw [hw.inUse_eq]
  omega

-- ---------------------------------------------------------------------------
-- Compaction as a whole
-- ---------------------------------------------------------------------------

section
variable {σ : Type} {mv : Nat → Nat → Nat → σ → Option σ} {s : σ}
  {R : Blocks → σ → Blocks → σ → Prop}

/-- The hook ends on every move of a compaction and keeps `R`. -/
def MoveOk (mv : Nat → Nat → Nat → σ → Option σ) (R : Blocks → σ → Blocks → σ → Prop) : Prop :=
  ∀ b s l A c y B, Wf b l → POOLSTART :: l = A ++ c :: y :: B → (b c).stop ≠ (b y).begin →
    ∃ s', mv (b c).stop (b y).begin (b y).size s = some s' ∧ R b s (moveDown b c y) s'

/-- `R` may be followed through any number of moves. -/
structure Carried (mv : Nat → Nat → Nat → σ → Option σ) (R : Blocks → σ → Blocks → σ → Prop) :
    Prop where
  move : MoveOk mv R
  refl : ∀ b s, R b s b s
  trans : ∀ {b s b₁ s₁ b₂ s₂}, R b s b₁ s₁ → R b₁ s₁ b₂ s₂ → R b s b₂ s₂

/-- The table after compaction: chain and sizes are kept, and the blocks `B`
follow the address `first` without a gap. -/
structure Collected (b : Blocks) (l B : List Handle) (first : Nat) (b' : Blocks) (last : Handle) :
    Prop where
  wf : Wf b' l
  size_eq : ∀ h, (b' h).size = (b h).size
  next_eq : ∀ h, (b' h).nextblock = (b h).nextblock
  last_eq : ∃ A', POOLSTART :: l = A' ++ [last]
  stop_last : (b' last).stop = first + total b B

theorem Wf.add16_stop (hw : Wf b l) (hc : c ∈ POOLSTART :: l) :
    add16 (b c).begin (b c).size = (b c).stop := by
  have := hw.stop_le hc
  have : POOLEND < 65536 := by decide
  exact add16_eq (by simp only [Memblock.stop] at *; omega)

theorem collect_ok (hR : Carried mv R) (hw : Wf b l) (hs : POOLSTART :: l = A ++ x :: B)
    (hfuel : B.length < fuel) : ∃ b' s' last, collect mv fuel x b s = some (b', s', last) ∧
      Collected b l B (b x).stop b' last ∧ R b s b' s' := by
  induction B generalizing A x b s fuel with
  | nil =>
    obtain ⟨fuel, rfl⟩ : ∃ n, fuel = n + 1 := ⟨fuel - 1, by simp at hfuel; omega⟩
    have hx : (b x).nextblock = NOBLOCK := hw.linked.drop hs
    exact ⟨b, s, x, by simp [collect, hx],
      ⟨hw, fun _ => rfl, fun _ => rfl, ⟨A, hs⟩, by simp [total]⟩, hR.refl b s⟩
  | cons y B ih =>
    obtain ⟨fuel, rfl⟩ : ∃ n, fuel = n + 1 := ⟨fuel - 1, by simp at hfuel; omega⟩
    obtain ⟨hy, hne, -⟩ := hw.linked.drop hs
    have hy : (b x).nextblock = y := hy
    have hs' : POOLSTART :: l = (A ++ [x]) ++ y :: B := by simp [hs]
    have hfuel' : B.length < fuel := by simpa using hfuel
    have hdest := hw.add16_stop (mem_of_split hs)
    by_cases hd : (b x).stop = (b y).begin
    · obtain ⟨b', s', last, hc, hcol, hRR⟩ := ih (s := s) hw hs' hfuel'
      refine ⟨b', s', last, ?_, ⟨hcol.wf, hcol.size_eq, hcol.next_eq, hcol.last_eq, ?_⟩, hRR⟩
      · simpa [collect, hy, hne, hdest, hd] using hc
      · have hlast := hcol.stop_last
        rw [total_cons, hd]
        simp only [Memblock.stop] at hlast ⊢
        omega
    · obtain ⟨s₁, hmove, hR₁⟩ := hR.move b s l A x y B hw hs hd
      obtain ⟨b', s', last, hc, hcol, hRR⟩ := ih (s := s₁) (hw.moveDown hs) hs' hfuel'
      refine ⟨b', s', last, ?_, ⟨hcol.wf, ?_, ?_, hcol.last_eq, ?_⟩, hR.trans hR₁ hRR⟩
      · simpa [collect, hy, hne, hdest, hd, hmove, MemoryPool.moveDown] using hc
      · intro h; rw [hcol.size_eq, moveDown_size]
      · intro h; rw [hcol.next_eq, moveDown_nextblock]
      · have hlast := hcol.stop_last
        rw [total_congr (b := b) (fun _ => moveDown_size), moveDown_self] at hlast
        rw [total_cons]
        simp only [Memblock.stop] at hlast ⊢
        omega

-- ---------------------------------------------------------------------------
-- allocBlock
-- ---------------------------------------------------------------------------

/-- What `allocBlock` finds when it succeeds. -/
def CanAlloc (b : Blocks) (size : Nat) : Prop :=
  inUse b + size ≤ MEMPOOL_SIZE ∧ (unused b).isSome

/-- The result of `allocBlock`: the blocks may have moved, `b₁` being the
table in between, and then descriptor `h` is linked in, or nothing is. -/
inductive Allocated (R : Blocks → σ → Blocks → σ → Prop) (b : Blocks) (l : List Handle) (s : σ)
    (size : Nat) : Blocks → σ → Handle → Prop
  | placed {b₁ b' : Blocks} {s' : σ} {A B : List Handle} {c h : Handle} (moved : R b s b₁ s') (size_eq : ∀ i, (b₁ i).size = (b i).size)
      (wf : Wf b₁ l) (split : POOLSTART :: l = A ++ c :: B) (fit : size ≤ freesize b₁ c)
      (fresh : unused b₁ = some h) (inserted : Inserted b₁ c h size b') (can : CanAlloc b size) :
      Allocated R b l s size b' s' h
  | exhausted {b' : Blocks} {s' : σ} (moved : R b s b' s') (size_eq : ∀ i, (b' i).size = (b i).size)
      (wf : Wf b' l) (cannot : ¬CanAlloc b size) : Allocated R b l s size b' s' NOBLOCK

theorem unused_congr (hsize : ∀ h, (b' h).size = (b h).size) : unused b' = unused b := by
  simp [unused, hsize]

/-- The code at `found`, entered with room behind `c`. -/
theorem found_ok {b₁ : Blocks} {s' : σ} (moved : R b s b₁ s')
    (hsize : ∀ i, (b₁ i).size = (b i).size) (hw : Wf b₁ l) (hs : POOLSTART :: l = A ++ c :: B)
    (hfit : size ≤ freesize b₁ c) :
    Allocated R b l s size (found b₁ c size).1 s' (found b₁ c size).2 := by
  cases hu : unused b₁ with
  | none =>
    have hf : found b₁ c size = (b₁, NOBLOCK) := by simp [found, hu]
    rw [hf]
    refine .exhausted moved hsize hw fun hcan => ?_
    have hsome := hcan.2
    rw [← unused_congr hsize, hu] at hsome
    exact Bool.false_ne_true hsome
  | some h =>
    obtain ⟨hh, hins⟩ := hw.found_inserted (mem_of_split hs) hu size
    rw [hh]
    refine .placed moved hsize hw hs hfit hu hins ⟨?_, by rw [← unused_congr hsize, hu]; rfl⟩
    have hroom := hw.inUse_freesize (mem_of_split hs)
    have hin : inUse b₁ = inUse b := total_congr hsize
    omega

theorem Wf.length_lt (hw : Wf b l) : l.length < WALK_LIMIT := Nat.lt_of_le_of_lt hw.length_le (by decide)

/-- The search loop ends, and has seen the gaps behind all blocks. -/
theorem Wf.searched (hw : Wf b l) (size : Nat) :
    ∃ r, search b size WALK_LIMIT POOLSTART none (MEMPOOL_SIZE + 1) = some r ∧ Searched b size (POOLSTART :: l) r := by
  have hmax : ∀ d ∈ POOLSTART :: l, freesize b d ≤ MEMPOOL_SIZE := fun d hd => by
    have := hw.inUse_freesize hd
    omega
  exact search_ok hw.linked hmax hw.length_lt (Searching.nil b size)

theorem allocBlock_ok (hR : Carried mv R) (hw : Wf b l) (s : σ) (size : Nat) :
    ∃ (b' : Blocks) (s' : σ) (h : Handle),
      allocBlock mv b s size = some (b', s', h) ∧ Allocated R b l s size b' s' h := by
  obtain ⟨r, hr, hsearched⟩ := hw.searched size
  cases r with
  | some c =>
    obtain ⟨hc, hfit, -⟩ := hsearched
    obtain ⟨A, B, hs⟩ := List.append_of_mem hc
    exact ⟨_, s, _, by simp [allocBlock, hr], found_ok (hR.refl b s) (fun _ => rfl) hw hs hfit⟩
  | none =>
    obtain ⟨b₁, s₁, last, hc, hcol, hRR⟩ := collect_ok (s := s) hR hw (A := []) rfl hw.length_lt
    obtain ⟨A', hs⟩ := hcol.last_eq
    have hend : POOLEND < 65536 := by decide
    have hstop := hcol.stop_last
    have hle := hcol.wf.stop_le (mem_of_split hs)
    have hroom : sub16 (sub16 (add16 (b₁ POOLSTART).begin MEMPOOL_SIZE) (b₁ last).begin)
        (b₁ last).size = freesize b₁ last := by
      have hn : (b₁ last).nextblock = NOBLOCK := hcol.wf.linked.drop hs
      simp [freesize, hn]
    have hfree := hcol.wf.freesize_eq hs
    simp only [limit] at hfree
    by_cases hfit : size ≤ freesize b₁ last
    · exact ⟨_, s₁, _, by simp [allocBlock, hr, hc, hroom, hfit],
        found_ok hRR hcol.size_eq hcol.wf hs hfit⟩
    · refine ⟨b₁, s₁, NOBLOCK, by simp [allocBlock, hr, hc, hroom, hfit],
        .exhausted hRR hcol.size_eq hcol.wf fun hcan => hfit ?_⟩
      have := hcan.1
      rw [hw.inUse_eq] at this
      rw [hw.start_stop] at hstop
      simp only [POOLEND] at hfree
      omega

end

-- ---------------------------------------------------------------------------
-- freeBlock
-- ---------------------------------------------------------------------------

/-- The table after descriptor `n`, the successor of `c`, has been taken out. -/
structure Erased (b : Blocks) (c n : Handle) (b' : Blocks) : Prop where
  pred : b' c = { b c with nextblock := (b n).nextblock }
  gone : b' n = { b n with size := 0, nextblock := NOBLOCK }
  other : ∀ h, h ≠ n → h ≠ c → b' h = b h

theorem unlink_ok {n : Handle} (hl : Linked (fun h => (b h).nextblock) NOBLOCK x B)
    (hnd : (x :: B).Nodup) (hn : n ≠ NOBLOCK) (hfuel : B.length < fuel) :
    (n ∉ B → unlink n fuel x b = some b) ∧
    (n ∈ B → ∃ A c D b', x :: B = A ++ c :: n :: D ∧ unlink n fuel x b = some b' ∧
      Erased b c n b') := by
  induction B generalizing x fuel with
  | nil =>
    obtain ⟨fuel, rfl⟩ : ∃ k, fuel = k + 1 := ⟨fuel - 1, by simp at hfuel; omega⟩
    have hl : (b x).nextblock = NOBLOCK := hl
    exact ⟨fun _ => by simp [unlink, hl, hn.symm], fun h => nomatch h⟩
  | cons y B ih =>
    obtain ⟨fuel, rfl⟩ : ∃ k, fuel = k + 1 := ⟨fuel - 1, by simp at hfuel; omega⟩
    obtain ⟨hy, hne, ht⟩ := hl
    have hy : (b x).nextblock = y := hy
    by_cases he : y = n
    · subst he
      have hxy : x ≠ y := fun h => by simp [h] at hnd
      let b₁ := Function.update b x { b x with nextblock := (b y).nextblock }
      let b₂ := Function.update b₁ y { b₁ y with size := 0, nextblock := NOBLOCK }
      have hu : unlink y (fuel + 1) x b = some b₂ := by simp only [unlink, hy, if_true, b₂, b₁]
      refine ⟨fun h => absurd List.mem_cons_self h, fun _ => ⟨[], x, B, b₂, rfl, hu, ?_, ?_, ?_⟩⟩
      · simp [b₂, b₁, hxy]
      · simp [b₂, b₁, hxy.symm]
      · intro h h1 h2
        simp [b₂, b₁, h1, h2]
    · obtain ⟨hout, hin⟩ := ih ht (List.nodup_cons.mp hnd).2 (by simpa using hfuel)
      have hstep : unlink n (fuel + 1) x b = unlink n fuel y b := by
        simp [unlink, hy, he, hne]
      refine ⟨fun h => ?_, fun h => ?_⟩
      · rw [hstep]
        exact hout fun hn => h (List.mem_cons_of_mem _ hn)
      · obtain ⟨A, c, D, b', hsplit, hu, her⟩ :=
          hin ((List.mem_cons.mp h).resolve_left fun h => he h.symm)
        exact ⟨x :: A, c, D, b', by simp [hsplit], hstep ▸ hu, her⟩

theorem mem_erase_tail {n : Handle} (hnd : (POOLSTART :: l).Nodup)
    (hs : POOLSTART :: l = A ++ c :: n :: B) : h ∈ (A ++ c :: B).tail ↔ h ∈ l ∧ h ≠ n := by
  have hcons := cons_tail (D := B) hs
  have hnd' : n ∉ A ++ c :: B := by
    rw [hs] at hnd
    have hmid : (A ++ [c] ++ n :: B).Perm (n :: (A ++ [c] ++ B)) := List.perm_middle
    have hperm : (A ++ c :: n :: B).Perm (n :: (A ++ c :: B)) := by simpa using hmid
    exact (List.nodup_cons.mp (hperm.nodup_iff.mp hnd)).1
  have hmem : h ∈ POOLSTART :: (A ++ c :: B).tail ↔ h ∈ POOLSTART :: l ∧ h ≠ n := by
    rw [hcons, hs]
    simp only [List.mem_append, List.mem_cons]
    by_cases he : h = n
    · subst he
      simpa using hnd'
    · simp [he]
  have h0 : POOLSTART ∉ (A ++ c :: B).tail := by
    have : (A ++ c :: B).Nodup := by
      rw [hs] at hnd
      exact hnd.sublist (by simp)
    rw [← hcons] at this
    exact (List.nodup_cons.mp this).1
  by_cases hh : h = POOLSTART
  · subst hh
    exact ⟨fun h => absurd h h0, fun h => absurd h.1 (List.nodup_cons.mp hnd).1⟩
  · simpa [hh] using hmem

theorem Wf.erase {n : Handle} (hw : Wf b l) (hs : POOLSTART :: l = A ++ c :: n :: B)
    (he : Erased b c n b') : Wf b' (A ++ c :: B).tail := by
  have hkeep : ∀ h, h ≠ n → (b' h).begin = (b h).begin ∧ (b' h).size = (b h).size := by
    intro h hn
    by_cases hc : h = c
    · rw [hc, he.pred]; exact ⟨rfl, rfl⟩
    · rw [he.other h hn hc]; exact ⟨rfl, rfl⟩
  have hstop : ∀ h, h ≠ n → (b' h).stop = (b h).stop := fun h hn => by
    simp only [Memblock.stop, hkeep h hn]
  have hmem := fun {h} => mem_erase_tail (h := h) hw.nodup hs
  have hn : n ∈ l := Wf.mem_after hs (by simp)
  have hn0 : POOLSTART ≠ n := (hw.ne_start hn).symm
  constructor
  · have h0 := hkeep POOLSTART hn0
    rw [hw.start] at h0
    rcases hb : b' POOLSTART with ⟨x, y, z⟩
    simp only [hb] at h0
    rw [h0.1, h0.2]
  · refine hw.linked.erase hs hw.nodup (by simp [he.pred]) fun z _ hzc hzn => ?_
    simp [he.other z hzn hzc]
  · intro h
    rw [hmem]
    by_cases hh : h = n
    · subst hh
      simp [he.gone]
    · rw [(hkeep h hh).2, ← hw.live h]
      simp [hh]
  · rw [cons_tail hs]
    have hord : (A ++ c :: B).Pairwise fun i j => (b i).stop ≤ (b j).begin := by
      have := hw.ordered
      rw [hs] at this
      exact this.sublist (by simp)
    have hnot : ∀ h ∈ A ++ c :: B, h ≠ n := by
      rw [← cons_tail (D := B) hs]
      intro h hh
      rcases List.mem_cons.mp hh with rfl | hh
      · exact hn0
      · exact (hmem.mp hh).2
    refine hord.imp_of_mem fun hi hj hij => ?_
    rwa [hstop _ (hnot _ hi), (hkeep _ (hnot _ hj)).1]
  · intro h hh
    rw [hstop h (hmem.mp hh).2]
    exact hw.bounded h (hmem.mp hh).1

/-- The result of `freeBlock`: the block is gone, and nothing else changed but
the chain around it. A handle that is not live is ignored. -/
inductive Freed (b : Blocks) (l : List Handle) (n : Handle) : Blocks → List Handle → Prop
  | ignored (h : n ∉ l) : Freed b l n b l
  | freed {b' : Blocks} {A B : List Handle} {c : Handle} (split : POOLSTART :: l = A ++ c :: n :: B) (erased : Erased b c n b')
      (wf : Wf b' (A ++ c :: B).tail) : Freed b l n b' (A ++ c :: B).tail

theorem freeBlock_ok (hw : Wf b l) (n : Handle) :
    ∃ b' l', freeBlock b n = some b' ∧ Freed b l n b' l' := by
  by_cases hn : n = NOBLOCK
  · subst hn
    exact ⟨b, l, by simp [freeBlock], .ignored hw.linked.stop_notMem⟩
  · obtain ⟨hout, hin⟩ := unlink_ok hw.linked hw.nodup hn hw.length_lt
    by_cases hm : n ∈ l
    · obtain ⟨A, c, D, b', hs, hu, he⟩ := hin hm
      exact ⟨b', _, by simp [freeBlock, hn, hu], .freed hs he (hw.erase hs he)⟩
    · exact ⟨b, l, by simp [freeBlock, hn, hout hm], .ignored hm⟩

-- ---------------------------------------------------------------------------
-- resizeBlock
-- ---------------------------------------------------------------------------

/-- A live block cut down to a part of itself. -/
theorem Wf.shrink (hw : Wf b l) {n : Handle} (hn : n ∈ l) {m : Memblock}
    (hnext : m.nextblock = (b n).nextblock) (hpos : 0 < m.size)
    (hbegin : (b n).begin ≤ m.begin) (hstop : m.stop ≤ (b n).stop) :
    Wf (Function.update b n m) l := by
  have hsub : ∀ h, (b h).begin ≤ (Function.update b n m h).begin ∧
      (Function.update b n m h).stop ≤ (b h).stop := by
    intro h
    by_cases hh : h = n
    · subst hh; simp [hbegin, hstop]
    · simp [hh]
  refine hw.reshape (by simp [(hw.ne_start hn).symm]) ?_ ?_ ?_ ?_
  · intro h
    by_cases hh : h = n
    · subst hh; simp [hnext]
    · simp [hh]
  · intro h
    by_cases hh : h = n
    · subst hh; simp [hpos, hw.size_pos hn]
    · simp [hh]
  · exact hw.ordered.imp fun {i j} hij =>
      Nat.le_trans (hsub i).2 (Nat.le_trans hij (hsub j).1)
  · exact fun h hh => Nat.le_trans (hsub h).2 (hw.bounded h hh)

theorem resizeBlockTo_ok (hw : Wf b l) {n : Handle} (hn : n ∈ l) {position : Nat}
    (hsize : 1 ≤ size) (hpos : position + size ≤ (b n).size) :
    resizeBlockTo b n position size =
      Function.update b n ⟨(b n).begin + position, size, (b n).nextblock⟩ ∧
    Wf (resizeBlockTo b n position size) l := by
  have hstop := hw.stop_le (List.mem_cons_of_mem _ hn)
  have hend : POOLEND < 65536 := by decide
  simp only [Memblock.stop] at hstop
  have heq : resizeBlockTo b n position size =
      Function.update b n ⟨(b n).begin + position, size, (b n).nextblock⟩ := by
    rw [resizeBlockTo, add16_eq (by omega)]
  refine ⟨heq, heq ▸ hw.shrink hn rfl hsize ?_ ?_⟩
  · exact Nat.le_add_right _ _
  · simp only [Memblock.stop]; omega

theorem resizeBlock_eq (hw : Wf b l) {n : Handle} (hn : n ∈ l) {position : Nat}
    (hpos : position ≤ (b n).size) :
    resizeBlock b n position = resizeBlockTo b n position ((b n).size - position) := by
  have hstop := hw.stop_le (List.mem_cons_of_mem _ hn)
  have hend : POOLEND < 65536 := by decide
  simp only [Memblock.stop] at hstop
  rw [resizeBlock, resizeBlockTo, sub16_eq hpos (by omega)]

end UIPEthernet.MemoryPool
