import UIPEthernet.Mempool
import UIPEthernet.Lib.Linked

/-!
# The pool's representation invariant

`Wf b l`: the table `b` chains exactly the blocks `l`, in ascending address
order, pairwise disjoint and inside the pool. Every operation is read as a
change of `l`; that the loops end and that no address wraps follows.
-/

namespace UIPEthernet

open Lib

/-- The address behind the block's last byte. -/
def Memblock.stop (m : Memblock) : Nat := m.begin + m.size

namespace MemoryPool

def POOLEND : Nat := MEMPOOL_STARTADDRESS + MEMPOOL_SIZE

structure Wf (b : Blocks) (l : List Handle) : Prop where
  start : b POOLSTART = ⟨MEMPOOL_STARTADDRESS, 0, (b POOLSTART).nextblock⟩
  linked : Linked (fun h => (b h).nextblock) NOBLOCK POOLSTART l
  live : ∀ h, h ∈ l ↔ POOLOFFSET ≤ h ∧ h ≤ MEMPOOL_NUM_MEMBLOCKS ∧ 0 < (b h).size
  ordered : (POOLSTART :: l).Pairwise fun i j => (b i).stop ≤ (b j).begin
  bounded : ∀ h ∈ l, (b h).stop ≤ POOLEND

/-- Where the room behind a block ends, given the blocks after it. -/
def limit (b : Blocks) : List Handle → Nat
  | [] => POOLEND
  | y :: _ => (b y).begin

theorem init_wf : Wf init [] where
  start := rfl
  linked := rfl
  live h := by
    simp only [List.not_mem_nil, false_iff, not_and]
    intro h1 _
    have h0 : h ≠ POOLSTART := fun he => absurd (he ▸ h1) (by decide)
    simp [init, h0]
  ordered := by simp
  bounded := by simp

section
variable {b : Blocks} {l A B : List Handle} {c h i j : Handle}

theorem Wf.ne_start (hw : Wf b l) (hh : h ∈ l) : h ≠ POOLSTART := by
  rintro rfl
  exact absurd ((hw.live _).mp hh).1 (by decide)

theorem Wf.size_pos (hw : Wf b l) (hh : h ∈ l) : 0 < (b h).size := ((hw.live h).mp hh).2.2

theorem Wf.start_begin (hw : Wf b l) : (b POOLSTART).begin = MEMPOOL_STARTADDRESS := by
  rw [hw.start]

theorem Wf.start_stop (hw : Wf b l) : (b POOLSTART).stop = MEMPOOL_STARTADDRESS := by
  rw [hw.start]; rfl

theorem Wf.le_begin (hw : Wf b l) (hh : h ∈ l) : MEMPOOL_STARTADDRESS ≤ (b h).begin :=
  hw.start_stop ▸ (List.pairwise_cons.mp hw.ordered).1 h hh

theorem Wf.stop_le (hw : Wf b l) (hh : h ∈ POOLSTART :: l) : (b h).stop ≤ POOLEND := by
  rcases List.mem_cons.mp hh with rfl | hh
  · exact hw.start_stop ▸ (by decide)
  · exact hw.bounded h hh

theorem Wf.nodup (hw : Wf b l) : (POOLSTART :: l).Nodup := by
  refine List.nodup_cons.mpr ⟨fun h0 => hw.ne_start h0 rfl, ?_⟩
  refine (List.pairwise_cons.mp hw.ordered).2.imp_of_mem ?_
  rintro i j hi - hij rfl
  have := hw.size_pos hi
  simp only [Memblock.stop] at hij
  omega

/-- Two different blocks are disjoint. -/
theorem Wf.disjoint (hw : Wf b l) (hi : i ∈ POOLSTART :: l) (hj : j ∈ POOLSTART :: l)
    (hij : i ≠ j) : (b i).stop ≤ (b j).begin ∨ (b j).stop ≤ (b i).begin := by
  let R i j := (b i).stop ≤ (b j).begin ∨ (b j).stop ≤ (b i).begin
  have : Std.Symm R := ⟨fun _ _ h => Or.symm h⟩
  exact List.Pairwise.forall (R := R) (hw.ordered.imp Or.inl) hi hj hij

/-- The blocks around `c` keep their distance from it. -/
theorem Wf.around (hw : Wf b l) (hs : POOLSTART :: l = A ++ c :: B) :
    (∀ a ∈ A, (b a).stop ≤ (b c).begin) ∧ ∀ d ∈ B, (b c).stop ≤ (b d).begin := by
  have h := hw.ordered
  rw [hs, List.pairwise_append] at h
  exact ⟨fun a ha => h.2.2 a ha c (by simp), (List.pairwise_cons.mp h.2.1).1⟩

theorem mem_of_split (hs : POOLSTART :: l = A ++ c :: B) : c ∈ POOLSTART :: l := by
  rw [hs]; simp

theorem Wf.mem_after (hs : POOLSTART :: l = A ++ c :: B) (hh : h ∈ B) : h ∈ l := by
  cases A with
  | nil => exact (List.cons.inj hs).2 ▸ hh
  | cons _ A => rw [(List.cons.inj hs).2]; simp [hh]

/-- No subtraction in the free-size computation wraps. -/
theorem Wf.limit_bounds (hw : Wf b l) (hs : POOLSTART :: l = A ++ c :: B) :
    (b c).stop ≤ limit b B ∧ limit b B ≤ POOLEND := by
  cases B with
  | nil => exact ⟨hw.stop_le (mem_of_split hs), Nat.le_refl _⟩
  | cons y B =>
    refine ⟨(hw.around hs).2 y (by simp), ?_⟩
    have := hw.bounded y (Wf.mem_after hs (by simp))
    simp only [Memblock.stop] at this
    simp only [limit]
    omega

theorem Wf.limit_le (hw : Wf b l) (hs : POOLSTART :: l = A ++ c :: B) : ∀ d ∈ B, limit b B ≤ (b d).begin := by
  cases B with
  | nil => simp
  | cons y B =>
    have hy := (hw.around (A := A ++ [c]) (c := y) (B := B) (by simp [hs])).2
    intro d hd
    rcases List.mem_cons.mp hd with rfl | hd
    · exact Nat.le_refl _
    · exact (Nat.le_add_right _ _).trans (hy d hd)

theorem Wf.freesize_eq (hw : Wf b l) (hs : POOLSTART :: l = A ++ c :: B) :
    freesize b c = limit b B - (b c).stop := by
  obtain ⟨hle, hlim⟩ := hw.limit_bounds hs
  have hc := hw.linked.drop hs
  have hn : (if (b c).nextblock = NOBLOCK then add16 (b POOLSTART).begin MEMPOOL_SIZE
      else (b (b c).nextblock).begin) = limit b B := by
    cases B with
    | nil =>
      have hc : (b c).nextblock = NOBLOCK := hc
      rw [if_pos hc, hw.start_begin]; rfl
    | cons y B =>
      obtain ⟨hy, hne, -⟩ := hc
      have hy : (b c).nextblock = y := hy
      rw [hy, if_neg hne]; rfl
  have hend : POOLEND < 65536 := by decide
  simp only [Memblock.stop] at hle ⊢
  simp only [freesize, hn]
  have hb : sub16 (limit b B) (b c).begin = limit b B - (b c).begin :=
    sub16_eq (by omega) (by omega)
  rw [hb, sub16_eq (by omega) (by omega)]
  omega

-- ---------------------------------------------------------------------------
-- The search loop
-- ---------------------------------------------------------------------------

/-- `best` is a best fit among the blocks `V`, or none of them fits. -/
def Searched (b : Blocks) (size : Nat) (V : List Handle) : Option Handle → Prop
  | none => ∀ d ∈ V, freesize b d < size
  | some c => c ∈ V ∧ size ≤ freesize b c ∧
      ∀ d ∈ V, size ≤ freesize b d → freesize b c ≤ freesize b d

/-- The loop variables after the blocks `V`, none of which fits exactly. -/
structure Searching (b : Blocks) (size : Nat) (V : List Handle) (best : Option Handle)
    (bestsize : Nat) : Prop where
  searched : Searched b size V best
  none_size : best = none → bestsize = MEMPOOL_SIZE + 1
  some_size : ∀ c, best = some c → bestsize = freesize b c ∧ size < bestsize

variable {V : List Handle} {best : Option Handle} {x size bestsize fuel : Nat}

theorem Searching.nil (b : Blocks) (size : Nat) : Searching b size [] none (MEMPOOL_SIZE + 1) :=
  ⟨fun _ hd => (List.not_mem_nil hd).elim, fun _ => rfl, fun _ hc => (nomatch hc)⟩

theorem Searching.snoc (h : Searching b size V best bestsize) (hx : freesize b x ≠ size)
    (hmax : freesize b x ≤ MEMPOOL_SIZE) :
    Searching b size (V ++ [x])
      (if size < freesize b x ∧ freesize b x < bestsize then some x else best)
      (if size < freesize b x ∧ freesize b x < bestsize then freesize b x else bestsize) := by
  obtain ⟨hs, hn, hc⟩ := h
  by_cases hb : size < freesize b x ∧ freesize b x < bestsize
  · simp only [if_pos hb]
    refine ⟨⟨by simp, by omega, ?_⟩, by simp, ?_⟩
    · intro d hd hfit
      rcases List.mem_append.mp hd with hd | hd
      · cases best with
        | none => exact absurd (hs d hd) (by omega)
        | some c =>
          obtain ⟨-, -, hmin⟩ := hs
          have := hmin d hd hfit
          have := (hc c rfl).1
          omega
      · exact Nat.le_of_eq (by rw [List.mem_singleton.mp hd])
    · rintro c hc'
      rw [← Option.some.inj hc']
      exact ⟨rfl, hb.1⟩
  · simp only [if_neg hb]
    refine ⟨?_, hn, hc⟩
    cases best with
    | none =>
      intro d hd
      rcases List.mem_append.mp hd with hd | hd
      · exact hs d hd
      · rw [List.mem_singleton.mp hd]
        have := hn rfl
        omega
    | some c =>
      obtain ⟨hm, hfit, hmin⟩ := hs
      refine ⟨by simp [hm], hfit, ?_⟩
      intro d hd hd'
      rcases List.mem_append.mp hd with hd | hd
      · exact hmin d hd hd'
      · rw [List.mem_singleton.mp hd] at hd' ⊢
        have := hc c rfl
        omega

theorem searched_exact (hx : freesize b x = size) : Searched b size (V ++ x :: B) (some x) :=
  ⟨by simp, by omega, fun d _ hd => by omega⟩

theorem search_ok (hl : Linked (fun h => (b h).nextblock) NOBLOCK x B)
    (hmax : ∀ d ∈ x :: B, freesize b d ≤ MEMPOOL_SIZE) (hfuel : B.length < fuel)
    (hv : Searching b size V best bestsize) :
    ∃ r, search b size fuel x best bestsize = some r ∧ Searched b size (V ++ x :: B) r := by
  induction B generalizing x V best bestsize fuel with
  | nil =>
    obtain ⟨fuel, rfl⟩ : ∃ n, fuel = n + 1 := ⟨fuel - 1, by simp at hfuel; omega⟩
    have hl : (b x).nextblock = NOBLOCK := hl
    by_cases he : freesize b x = size
    · exact ⟨some x, by simp [search, he], searched_exact he⟩
    · exact ⟨_, by simp only [search, he, hl, if_true, if_false],
        (hv.snoc he (hmax x (by simp))).searched⟩
  | cons y B ih =>
    obtain ⟨fuel, rfl⟩ : ∃ n, fuel = n + 1 := ⟨fuel - 1, by simp at hfuel; omega⟩
    obtain ⟨hy, hne, ht⟩ := hl
    have hy : (b x).nextblock = y := hy
    by_cases he : freesize b x = size
    · exact ⟨some x, by simp [search, he], searched_exact he⟩
    · obtain ⟨r, hr, hs⟩ := ih ht (fun d hd => hmax d (List.mem_cons_of_mem _ hd))
        (by simpa using hfuel) (hv.snoc he (hmax x (by simp)))
      refine ⟨r, ?_, by simpa using hs⟩
      simpa only [search, he, hy, hne, if_false] using hr

-- ---------------------------------------------------------------------------
-- Linking a descriptor in
-- ---------------------------------------------------------------------------

theorem mem_descriptors : h ∈ List.range' POOLOFFSET MEMPOOL_NUM_MEMBLOCKS ↔
    POOLOFFSET ≤ h ∧ h ≤ MEMPOOL_NUM_MEMBLOCKS := by
  rw [List.mem_range'_1, show POOLOFFSET + MEMPOOL_NUM_MEMBLOCKS = MEMPOOL_NUM_MEMBLOCKS + 1 from rfl,
    Nat.lt_succ_iff]

theorem unused_ok {cur : Handle} (h : unused b = some cur) :
    POOLOFFSET ≤ cur ∧ cur ≤ MEMPOOL_NUM_MEMBLOCKS ∧ (b cur).size = 0 := by
  obtain ⟨h1, h2⟩ := mem_descriptors.mp (List.mem_of_find?_eq_some h)
  exact ⟨h1, h2, by simpa using List.find?_some h⟩

/-- The table after descriptor `cur` has been linked in behind `c`. -/
structure Inserted (b : Blocks) (c cur : Handle) (size : Nat) (b' : Blocks) : Prop where
  new : b' cur = ⟨(b c).stop, size, (b c).nextblock⟩
  pred : b' c = { b c with nextblock := cur }
  other : ∀ h, h ≠ cur → h ≠ c → b' h = b h

/-- The other blocks stay where they are. -/
theorem Inserted.stays {b' : Blocks} {cur : Handle} (hi : Inserted b c cur size b') (hne : h ≠ cur) :
    (b' h).begin = (b h).begin ∧ (b' h).size = (b h).size := by
  by_cases hc : h = c
  · rw [hc, hi.pred]; exact ⟨rfl, rfl⟩
  · rw [hi.other h hne hc]; exact ⟨rfl, rfl⟩

theorem Wf.unused_notMem {cur : Handle} (hw : Wf b l) (hu : unused b = some cur) :
    cur ∉ POOLSTART :: l := by
  obtain ⟨h1, -, hz⟩ := unused_ok hu
  rw [List.mem_cons, not_or]
  refine ⟨fun h0 => absurd h1 (h0 ▸ by decide), fun hm => ?_⟩
  exact absurd (hw.size_pos hm) (by omega)

theorem Wf.found_inserted {cur : Handle} (hw : Wf b l) (hc : c ∈ POOLSTART :: l)
    (hu : unused b = some cur) (size : Nat) :
    (found b c size).2 = cur ∧ Inserted b c cur size (found b c size).1 := by
  have hne : c ≠ cur := fun he => hw.unused_notMem hu (he ▸ hc)
  have hstop : add16 (b c).begin (b c).size = (b c).stop := by
    have := hw.stop_le hc
    have : POOLEND < 65536 := by decide
    exact add16_eq (by simp only [Memblock.stop] at *; omega)
  simp only [found, hu, hstop]
  exact ⟨trivial, by simp [Function.update_of_ne hne.symm], by simp [Function.update_of_ne hne],
    fun h h1 h2 => by simp [h1, h2]⟩

theorem cons_tail {D : List Handle} (hs : POOLSTART :: l = A ++ c :: B) :
    POOLSTART :: (A ++ c :: D).tail = A ++ c :: D := by
  cases A with
  | nil => rw [(List.cons.inj hs).1]; rfl
  | cons a A => rw [(List.cons.inj hs).1]; rfl

theorem mem_insert_tail {cur : Handle} (hs : POOLSTART :: l = A ++ c :: B) :
    h ∈ (A ++ c :: cur :: B).tail ↔ h = cur ∨ h ∈ l := by
  cases A with
  | nil => rw [(List.cons.inj hs).2]; simp
  | cons a A =>
    rw [(List.cons.inj hs).2]
    have hA : A.append (c :: B) = A ++ c :: B := rfl
    simp only [hA, List.cons_append, List.tail_cons, List.mem_append, List.mem_cons]
    tauto

theorem Wf.insert {b' : Blocks} {cur : Handle} (hw : Wf b l) (hs : POOLSTART :: l = A ++ c :: B)
    (hu : unused b = some cur) (hsize : 1 ≤ size) (hfit : size ≤ freesize b c)
    (hi : Inserted b c cur size b') : Wf b' (A ++ c :: cur :: B).tail := by
  have hcur := hw.unused_notMem hu
  obtain ⟨hcur1, hcur2, -⟩ := unused_ok hu
  have hbegin : ∀ h ∈ POOLSTART :: l, (b' h).begin = (b h).begin ∧ (b' h).size = (b h).size :=
    fun h hh => hi.stays fun he => hcur (he ▸ hh)
  have hstop : ∀ h ∈ POOLSTART :: l, (b' h).stop = (b h).stop := by
    intro h hh
    obtain ⟨h1, h2⟩ := hbegin h hh
    simp only [Memblock.stop, h1, h2]
  obtain ⟨hle, hlim⟩ := hw.limit_bounds hs
  rw [hw.freesize_eq hs] at hfit
  have hnewstop : (b' cur).stop ≤ limit b B := by
    rw [hi.new]; simp only [Memblock.stop] at hle hfit ⊢; omega
  constructor
  · have h0 := hbegin POOLSTART (by simp)
    rw [hw.start] at h0
    rcases hb : b' POOLSTART with ⟨x, y, z⟩
    simp only [hb] at h0
    rw [h0.1, h0.2]
  · refine hw.linked.insert hs hw.nodup ?_ ?_ ?_ ?_
    · exact fun he => hcur (he ▸ List.mem_cons_self)
    · simp [hi.pred]
    · simp [hi.new]
    · intro z hz hzc
      have hne : z ≠ cur := fun he => hcur (he ▸ hz)
      simp [hi.other z hne hzc]
  · intro h
    rw [mem_insert_tail hs]
    by_cases hh : h = cur
    · subst hh
      simp [hi.new, hcur1, hcur2]
      omega
    · by_cases hm : h ∈ POOLSTART :: l
      · rw [(hbegin h hm).2, ← hw.live h]
        simp [hh]
      · have hc : h ≠ c := fun he => hm (he ▸ mem_of_split hs)
        rw [hi.other h hh hc, ← hw.live h]
        simp [hh]
  · rw [cons_tail hs]
    have hord := hw.ordered
    have hnewbegin : (b' cur).begin = (b c).stop := by rw [hi.new]
    have hc := mem_of_split hs
    have hold : (POOLSTART :: l).Pairwise fun i j => (b' i).stop ≤ (b' j).begin := by
      refine hord.imp_of_mem fun hi hj hij => ?_
      rw [hstop _ hi, (hbegin _ hj).1]; exact hij
    rw [hs] at hold
    refine pairwise_insert hold ?_ ?_ ?_
    · intro a ha
      have := (hw.around hs).1 a ha
      rw [hstop a (hs ▸ by simp [ha]), hnewbegin]
      simp only [Memblock.stop] at this ⊢; omega
    · exact Nat.le_of_eq (by rw [hstop c hc, hnewbegin])
    · intro d hd
      rw [(hbegin d (by simp [Wf.mem_after hs hd])).1]
      exact Nat.le_trans hnewstop (hw.limit_le hs d hd)
  · intro h hh
    rcases (mem_insert_tail hs).mp hh with rfl | hh
    · omega
    · rw [hstop h (by simp [hh])]
      exact hw.bounded h hh

end

end MemoryPool

end UIPEthernet
