import UIPEthernet.Enc28J60Network
import UIPEthernet.Mempool.Operations

/-!
# What the pool's blocks hold

`view` reads the controller state as a map from live handles to the bytes of
their blocks. Each operation of the pool and each packet accessor is one
change of that map; `Changed` states it together with what stays: the table
is well formed and the receive ring is untouched.
-/

namespace UIPEthernet

open Lib

namespace MemoryPool

def Live (b : Blocks) (h : Handle) : Prop :=
  POOLOFFSET ≤ h ∧ h ≤ MEMPOOL_NUM_MEMBLOCKS ∧ 0 < (b h).size

instance : Decidable (Live b h) := inferInstanceAs (Decidable (_ ∧ _ ∧ _))

theorem Wf.mem_iff (hw : Wf b l) : h ∈ l ↔ Live b h := hw.live h

def contents (b : Blocks) (ram : Nat → Byte) (h : Handle) : List Byte :=
  load ram (b h).begin (b h).size

/-- Every live block is still live and holds the same bytes, and so does the
memory below the pool. -/
structure Same (b : Blocks) (ram : Nat → Byte) (b' : Blocks) (ram' : Nat → Byte) : Prop where
  live : ∀ h, Live b h → Live b' h
  contents : ∀ h, Live b h → contents b' ram' h = contents b ram h
  below : ∀ a < MEMPOOL_STARTADDRESS, ram' a = ram a

end MemoryPool

namespace Enc28J60Network

open MemoryPool

-- ---------------------------------------------------------------------------
-- Reading, writing and copying without a wrap
-- ---------------------------------------------------------------------------

variable {ram : Nat → Byte} {a n src dest fuel : Nat} {data : List Byte}

@[simp] theorem readBuffer_length (ram : Nat → Byte) (n a : Nat) : (readBuffer ram n a).length = n := by
  induction n generalizing a with
  | zero => rfl
  | succ n ih => rw [readBuffer, List.length_cons, ih]

theorem readBuffer_eq (ha : RXSTOP_INIT < a) (hn : a + n ≤ MEMORY_SIZE) :
    readBuffer ram n a = load ram a n := by
  induction n generalizing a with
  | zero => rfl
  | succ n ih =>
    rw [readBuffer, load_succ]
    congr 1
    cases n with
    | zero => rfl
    | succ n =>
      have hnext : nextRead a = a + 1 := by
        rw [nextRead, if_neg (by omega), Nat.mod_eq_of_lt (by omega)]
      rw [hnext]
      exact ih (by omega) (by omega)

theorem writeBuffer_eq (hn : a + data.length ≤ MEMORY_SIZE) :
    writeBuffer data a ram = store ram a data := by
  induction data generalizing a ram with
  | nil => simp [writeBuffer]
  | cons x data ih =>
    rw [List.length_cons] at hn
    rw [writeBuffer, store_cons]
    cases data with
    | nil => simp [writeBuffer]
    | cons z data =>
      have hnext : nextWrite a = a + 1 := Nat.mod_eq_of_lt (by simp at hn; omega)
      rw [hnext, ih (by omega)]

/-- A source range the DMA's read pointer passes without jumping. -/
def Linear (src n : Nat) : Prop := RXSTOP_INIT < src ∨ src + n ≤ RXSTOP_INIT + 1

/-- A destination the copy may overwrite while it reads: below the source, or
not touching it. -/
def Ahead (dest src n : Nat) : Prop := dest ≤ src ∨ src + n ≤ dest

theorem dma_eq (hn : n < fuel) (hlin : Linear src (n + 1)) (hover : Ahead dest src (n + 1))
    (hsrc : src + (n + 1) ≤ MEMORY_SIZE) (hdest : dest + (n + 1) ≤ MEMORY_SIZE) :
    dma (src + n) fuel src dest ram = some (store ram dest (load ram src (n + 1))) := by
  induction n generalizing src dest fuel ram with
  | zero =>
    obtain ⟨fuel, rfl⟩ : ∃ k, fuel = k + 1 := ⟨fuel - 1, by omega⟩
    rw [load_succ, store_cons]
    simp only [dma, Nat.add_zero, if_true, load_zero, store_nil]
  | succ n ih =>
    obtain ⟨fuel, rfl⟩ : ∃ k, fuel = k + 1 := ⟨fuel - 1, by omega⟩
    simp only [Linear, Ahead] at hlin hover ih
    have hread : nextRead src = src + 1 := by
      rw [nextRead, if_neg (by omega), Nat.mod_eq_of_lt (by omega)]
    have hwrite : nextWrite dest = dest + 1 := Nat.mod_eq_of_lt (by omega)
    have hload : load (Function.update ram dest (ram src)) (src + 1) (n + 1) =
        load ram (src + 1) (n + 1) := load_congr fun i hi => by
      rw [Function.update_of_ne (by omega)]
    rw [dma, if_neg (by omega), hread, hwrite, show src + (n + 1) = src + 1 + n by omega,
      ih (by omega) (by omega) (by omega) (by omega) (by omega), hload, load_succ (a := src),
      store_cons]

/-- The move callback on a source that does not wrap. -/
theorem mempoolBlockMoveCallback_eq (ram : Nat → Byte) (hn : 1 ≤ n) (hlin : Linear src n) (hover : Ahead dest src n)
    (hsrc : src + n ≤ MEMORY_SIZE) (hdest : dest + n ≤ MEMORY_SIZE) :
    mempoolBlockMoveCallback dest src n ram = some (store ram dest (load ram src n)) := by
  have hm : MEMORY_SIZE = 8192 := rfl
  have hsrc' : src % MEMORY_SIZE = src := Nat.mod_eq_of_lt (by omega)
  have hdest' : dest % MEMORY_SIZE = dest := Nat.mod_eq_of_lt (by omega)
  obtain ⟨k, rfl⟩ : ∃ k, n = k + 1 := ⟨n - 1, by omega⟩
  cases k with
  | zero =>
    rw [mempoolBlockMoveCallback, if_pos rfl, hsrc', hdest', load_succ, store_cons, load_zero, store_nil]
  | succ k =>
    have hlast : add16 (k + 1 + 1) (sub16 src 1) = src + (k + 1) := by
      simp only [add16, sub16]; omega
    have hnowrap : ¬(src ≤ RXSTOP_INIT ∧ src + (k + 1) > RXSTOP_INIT) := by
      simp only [Linear] at hlin; omega
    rw [mempoolBlockMoveCallback, if_neg (by omega)]
    simp only [hlast, if_neg hnowrap, hsrc', hdest']
    rw [Nat.mod_eq_of_lt (by omega)]
    exact dma_eq (by omega) hlin hover hsrc hdest

-- ---------------------------------------------------------------------------
-- Compaction moves every block with its bytes
-- ---------------------------------------------------------------------------

variable {b : Blocks} {l : List Handle} {e e' : Enc28J60Network} {h : Handle}

/-- A live block lies in the transmit memory. -/
theorem Wf.bounds (hw : Wf b l) (hh : Live b h) :
    RXSTOP_INIT < (b h).begin ∧ (b h).begin + (b h).size ≤ MEMORY_SIZE := by
  have hm := hw.mem_iff.mpr hh
  have h1 := hw.le_begin hm
  have h2 := hw.stop_le (List.mem_cons_of_mem _ hm)
  exact ⟨Nat.lt_of_lt_of_le (by decide) h1, h2⟩

theorem move_same : MoveOk mempoolBlockMoveCallback Same := by
  intro b ram l A c y B hw hs hne
  have hy : y ∈ l := Wf.mem_after hs (by simp)
  have hlive := hw.mem_iff.mp hy
  have hcy := (hw.around hs).2 y (by simp)
  have hsize := hw.size_pos hy
  obtain ⟨hlow, hhigh⟩ := Wf.bounds hw hlive
  have hstart : MEMPOOL_STARTADDRESS ≤ (b c).stop := by
    rcases List.mem_cons.mp (mem_of_split hs) with rfl | hc
    · exact Nat.le_of_eq hw.start_stop.symm
    · exact Nat.le_trans (hw.le_begin hc) (Nat.le_add_right _ _)
  refine ⟨_, mempoolBlockMoveCallback_eq ram hsize (.inl hlow) (.inl hcy) hhigh (by omega), ?_, ?_, ?_⟩
  · intro h hh
    simpa [Live] using hh
  · intro h hh
    by_cases he : h = y
    · subst he
      have := load_store_self (m := ram) (a := (b c).stop) (l := load ram (b h).begin (b h).size)
      simpa [contents, moveDown_self] using this
    · have hm := hw.mem_iff.mpr hh
      have hdis := (hw.moveDown hs).disjoint (List.mem_cons_of_mem _ hm)
        (List.mem_cons_of_mem _ hy) he
      rw [moveDown_of_ne he, moveDown_self] at hdis
      rw [contents, contents, moveDown_of_ne he]
      refine load_store_disjoint ?_
      simp only [Memblock.stop, load_length] at hdis ⊢
      exact hdis
  · intro a ha
    exact store_outside (.inl (by omega))

theorem carried_same : Carried mempoolBlockMoveCallback Same where
  move := move_same
  refl _ _ := ⟨fun _ h => h, fun _ _ => rfl, fun _ _ => rfl⟩
  trans h₁ h₂ := ⟨fun h hh => h₂.live h (h₁.live h hh),
    fun h hh => (h₂.contents h (h₁.live h hh)).trans (h₁.contents h hh),
    fun a ha => (h₂.below a ha).trans (h₁.below a ha)⟩

end Enc28J60Network

end UIPEthernet
