import UIPEthernet.Enc28J60Network.Memory

/-!
# The pool as a map from handles to bytes

`view` reads the controller state as a map from live handles to what their
blocks hold. Each operation of the pool and each packet accessor is one change
of that map; `Changed` states it together with what stays: the table is well
formed and the memory below the pool, with the receive ring, is untouched.
-/

namespace UIPEthernet.Enc28J60Network

open Lib MemoryPool

abbrev Map := Handle → Option (List Byte)

def view (e : Enc28J60Network) : Map := fun h =>
  if Live e.blocks h then some (contents e.blocks e.ram h) else none

def Valid (e : Enc28J60Network) : Prop := ∃ l, Wf e.blocks l

structure Changed (e e' : Enc28J60Network) (v : Map) : Prop where
  valid : e'.Valid
  view : e'.view = v
  below : ∀ a < MEMPOOL_STARTADDRESS, e'.ram a = e.ram a

section
variable {e e' : Enc28J60Network} {h i : Handle} {c : List Byte} {position size len : Nat}

theorem view_some : e.view h = some c ↔ Live e.blocks h ∧ contents e.blocks e.ram h = c := by
  by_cases hl : Live e.blocks h <;> simp [view, hl]

theorem view_none : e.view h = none ↔ ¬Live e.blocks h := by
  by_cases hl : Live e.blocks h <;> simp [view, hl]

theorem view_congr (hlive : Live e'.blocks i ↔ Live e.blocks i)
    (hcont : Live e.blocks i → contents e'.blocks e'.ram i = contents e.blocks e.ram i) :
    e'.view i = e.view i := by
  by_cases hl : Live e.blocks i
  · simp only [view, if_pos hl, if_pos (hlive.mpr hl), hcont hl]
  · rw [view_none.mpr hl, view_none.mpr fun h => hl (hlive.mp h)]

theorem view_length (hc : e.view h = some c) : c.length = (e.blocks h).size := by
  rw [← (view_some.mp hc).2, contents, load_length]

theorem view_ne (hc : e.view h = some c) : h ≠ NOBLOCK ∧ h ≠ UIP_RECEIVEBUFFERHANDLE := by
  obtain ⟨⟨h1, h2, -⟩, -⟩ := view_some.mp hc
  constructor
  · rintro rfl; exact absurd h1 (by decide)
  · rintro rfl; exact absurd h2 (by decide)

theorem view_pos (hc : e.view h = some c) : 0 < c.length := by
  rw [view_length hc]
  exact (view_some.mp hc).1.2.2

/-- Where a viewed block lies. -/
theorem Valid.bounds (hv : e.Valid) (hc : e.view h = some c) :
    RXSTOP_INIT + 1 < (e.blocks h).begin ∧ (e.blocks h).begin + c.length ≤ MEMORY_SIZE := by
  obtain ⟨l, hw⟩ := hv
  have hm := hw.mem_iff.mpr (view_some.mp hc).1
  have h1 := hw.le_begin hm
  have h2 := hw.stop_le (List.mem_cons_of_mem _ hm)
  rw [view_length hc]
  exact ⟨Nat.lt_of_lt_of_le (by decide) h1, h2⟩

theorem Valid.disjoint (hv : e.Valid) (hh : Live e.blocks h) (hi : Live e.blocks i) (hne : h ≠ i) :
    (e.blocks h).begin + (e.blocks h).size ≤ (e.blocks i).begin ∨
      (e.blocks i).begin + (e.blocks i).size ≤ (e.blocks h).begin := by
  obtain ⟨l, hw⟩ := hv
  exact hw.disjoint (List.mem_cons_of_mem _ (hw.mem_iff.mpr hh))
    (List.mem_cons_of_mem _ (hw.mem_iff.mpr hi)) hne

theorem init_valid (ram : Nat → Byte) (t : List Transmission) : (init ram t).Valid :=
  ⟨[], init_wf⟩

theorem init_view (ram : Nat → Byte) (t : List Transmission) : (init ram t).view = fun _ => none := by
  funext h
  refine view_none.mpr fun hl => ?_
  exact List.not_mem_nil (init_wf.mem_iff.mpr hl)

theorem Changed.refl (hv : e.Valid) : Changed e e e.view := ⟨hv, rfl, fun _ _ => rfl⟩

theorem Changed.trans {e₁ : Enc28J60Network} {v v' : Map} (h₁ : Changed e e₁ v)
    (h₂ : Changed e₁ e' v') : Changed e e' v' :=
  ⟨h₂.valid, h₂.view, fun a ha => (h₂.below a ha).trans (h₁.below a ha)⟩

-- ---------------------------------------------------------------------------
-- Writing into a block
-- ---------------------------------------------------------------------------

/-- A slice of a live block overwritten, the table kept. -/
theorem Changed.of_store {xs : List Byte} (hv : e.Valid) (hc : e.view h = some c)
    (hblocks : e'.blocks = e.blocks)
    (hram : e'.ram = store e.ram ((e.blocks h).begin + position) xs)
    (hin : position + xs.length ≤ c.length) :
    Changed e e' (Function.update e.view h (some (splice c position xs))) := by
  obtain ⟨hl, hcont⟩ := view_some.mp hc
  have hlen := view_length hc
  refine ⟨by rw [Valid, hblocks]; exact hv, ?_, ?_⟩
  · funext i
    by_cases hi : i = h
    · subst hi
      rw [Function.update_self, view_some, hblocks, hram]
      refine ⟨hl, ?_⟩
      rw [contents, load_store (by omega), ← hcont, contents]
    · rw [Function.update_of_ne hi]
      refine view_congr (by rw [hblocks]) fun hli => ?_
      have hdis := hv.disjoint hli hl hi
      rw [contents, contents, hblocks, hram, load_store_disjoint (by omega)]
  · intro a ha
    rw [hram]
    have := (hv.bounds hc).1
    have hstart : MEMPOOL_STARTADDRESS = RXSTOP_INIT + 2 := rfl
    exact store_outside (.inl (by omega))

theorem clip_eq (hp : position ≤ (e.blocks h).size) (hs : (e.blocks h).size < 65536) (len : Nat) :
    clip (e.blocks h) position len = min len ((e.blocks h).size - position) := by
  rw [clip, sub16_eq hp hs]
  split <;> omega

theorem writePacket_ok (hv : e.Valid) (hc : e.view h = some c) (hp : position ≤ c.length)
    (buffer : List Byte) :
    (e.writePacket h position buffer).2 = min buffer.length (c.length - position) ∧
    Changed e (e.writePacket h position buffer).1
      (Function.update e.view h (some (splice c position (buffer.take (c.length - position))))) := by
  have hb := hv.bounds hc
  have hlen := view_length hc
  have hm : MEMORY_SIZE = 8192 := rfl
  have hclip := clip_eq (hlen ▸ hp) (by omega) buffer.length
  have htake : buffer.take (min buffer.length ((e.blocks h).size - position)) =
      buffer.take (c.length - position) := by
    rw [hlen, List.take_eq_take_iff]; omega
  refine ⟨by simp only [writePacket, hclip, hlen], Changed.of_store hv hc rfl ?_ ?_⟩
  · have hstart : add16 (e.blocks h).begin position % MEMORY_SIZE = (e.blocks h).begin + position ∨
        c.length = position := by
      rw [add16_eq (by omega)]
      rcases Nat.lt_or_ge ((e.blocks h).begin + position) MEMORY_SIZE with hlt | hge
      · exact .inl (Nat.mod_eq_of_lt hlt)
      · exact .inr (by omega)
    simp only [writePacket, hclip, htake]
    rcases hstart with hstart | hfull
    · rw [hstart]
      exact writeBuffer_eq (by rw [List.length_take]; omega)
    · simp [hfull, writeBuffer]
  · rw [List.length_take]; omega

theorem readPacket_ok (hv : e.Valid) (hc : e.view h = some c) (hp : position ≤ c.length) :
    e.readPacket h position len = (c.drop position).take len := by
  have hb := hv.bounds hc
  have hlen := view_length hc
  have hm : MEMORY_SIZE = 8192 := rfl
  have hpacket : e.packet h = e.blocks h := if_neg (view_ne hc).2
  have hstart : e.readStart h position = (e.blocks h).begin + position := by
    simp only [readStart, hpacket, (view_ne hc).2, false_and, if_false]
    exact add16_eq (by omega)
  have hclip := clip_eq (hlen ▸ hp) (by omega) len
  have hcont : (c.drop position).take len =
      load e.ram ((e.blocks h).begin + position) (min len ((e.blocks h).size - position)) := by
    rw [← (view_some.mp hc).2, contents, load_drop]
    rcases Nat.le_total len ((e.blocks h).size - position) with hle | hle
    · rw [load_take hle, Nat.min_eq_left hle]
    · rw [List.take_of_length_le (by simpa using hle), Nat.min_eq_right hle]
  simp only [readPacket, setReadPtr, hstart, hpacket, hclip, hcont]
  rcases Nat.lt_or_ge ((e.blocks h).begin + position) MEMORY_SIZE with hlt | hge
  · rw [Nat.mod_eq_of_lt hlt]
    exact readBuffer_eq (by omega) (by omega)
  · have : min len ((e.blocks h).size - position) = 0 := by omega
    simp [this, readBuffer]

/-- The packet memory of a pool block is read where the block lies. -/
theorem readStart_pool (hv : e.Valid) (hc : e.view h = some c) (hp : position ≤ c.length) :
    e.readStart h position = (e.blocks h).begin + position := by
  have hb := hv.bounds hc
  have hm : MEMORY_SIZE = 8192 := rfl
  simp only [readStart, packet, (view_ne hc).2, false_and, if_false]
  exact add16_eq (by omega)

/-- A copy into a block from a source the DMA reads without a jump. -/
theorem copyPacket_ok {src srcPos : Nat} (hv : e.Valid) (hc : e.view h = some c) (hlen : 1 ≤ len)
    (hin : position + len ≤ c.length) (hlin : Linear (e.readStart src srcPos) len)
    (hsrc : e.readStart src srcPos + len ≤ MEMORY_SIZE)
    (hover : Ahead ((e.blocks h).begin + position) (e.readStart src srcPos) len) :
    ∃ e', e.copyPacket h position src srcPos len = some e' ∧
      Changed e e' (Function.update e.view h
        (some (splice c position (load e.ram (e.readStart src srcPos) len)))) ∧
      e' = { e with ram := e'.ram }.setERXRDPT := by
  have hb := hv.bounds hc
  have hm : MEMORY_SIZE = 8192 := rfl
  have hdest : add16 (e.blocks h).begin position = (e.blocks h).begin + position :=
    add16_eq (by omega)
  have hmove := mempoolBlockMoveCallback_eq e.ram hlen hlin hover hsrc (by omega)
  let ram := store e.ram ((e.blocks h).begin + position)
    (load e.ram (e.readStart src srcPos) len)
  let e' := { e with ram := ram }.setERXRDPT
  have hch : Changed e e' _ := .of_store hv hc rfl rfl (by rwa [load_length])
  exact ⟨e', by simp [copyPacket, hdest, hmove, e', ram], hch, rfl⟩

/-- A copy between two blocks of the pool. -/
theorem copyPacket_pool {j : Handle} {d : List Byte} {srcPos : Nat} (hv : e.Valid)
    (hc : e.view h = some c) (hd : e.view j = some d) (hne : h ≠ j) (hlen : 1 ≤ len)
    (hin : position + len ≤ c.length) (hfrom : srcPos + len ≤ d.length) :
    ∃ e', e.copyPacket h position j srcPos len = some e' ∧
      Changed e e' (Function.update e.view h
        (some (splice c position ((d.drop srcPos).take len)))) ∧
      e' = { e with ram := e'.ram }.setERXRDPT := by
  have hbc := hv.bounds hc
  have hbd := hv.bounds hd
  have hdis := hv.disjoint (view_some.mp hc).1 (view_some.mp hd).1 hne
  have hlc := view_length hc
  have hld := view_length hd
  have hstart := readStart_pool hv hd (show srcPos ≤ d.length by omega)
  have hload : (d.drop srcPos).take len = load e.ram (e.readStart j srcPos) len := by
    rw [hstart, ← (view_some.mp hd).2, contents, load_drop, load_take (by omega)]
  rw [hload]
  refine copyPacket_ok hv hc hlen hin (.inl ?_) ?_ ?_
  · omega
  · omega
  · rw [hstart]
    simp only [Ahead]
    omega

-- ---------------------------------------------------------------------------
-- The pool
-- ---------------------------------------------------------------------------

/-- The result of `allocBlock`: a fresh handle whose block holds whatever the
memory held, or no handle and nothing changed. -/
inductive AllocResult (e : Enc28J60Network) (size : Nat) : Enc28J60Network → Handle → Prop
  | placed {e' : Enc28J60Network} {h : Handle} {c : List Byte} (can : CanAlloc e.blocks size)
      (fresh : e.view h = none) (len : c.length = size)
      (changed : Changed e e' (Function.update e.view h (some c))) : AllocResult e size e' h
  | failed {e' : Enc28J60Network} (cannot : ¬CanAlloc e.blocks size)
      (changed : Changed e e' e.view) : AllocResult e size e' NOBLOCK

theorem allocBlock_ok (hv : e.Valid) (hsize : 1 ≤ size) :
    ∃ e' h, e.allocBlock size = some (e', h) ∧ AllocResult e size e' h ∧
      e' = { e with blocks := e'.blocks, ram := e'.ram } := by
  obtain ⟨l, hw⟩ := hv
  obtain ⟨b', ram', h, halloc, hres⟩ :=
    MemoryPool.allocBlock_ok carried_same hw e.ram size
  refine ⟨{ e with blocks := b', ram := ram' }, h, by simp [allocBlock, halloc], ?_, rfl⟩
  cases hres with
  | exhausted moved hsz hw' hcannot =>
    refine .failed hcannot ⟨⟨l, hw'⟩, funext fun i => ?_, moved.below⟩
    exact view_congr (by simp [Live, hsz]) (moved.contents i)
  | placed moved hsz hw₁ hs hfit hfresh hins hcan =>
    rename_i b₁ A B p
    have hsz₁ : ∀ i, Live b₁ i ↔ Live e.blocks i := fun i => by simp [Live, hsz]
    have hnot := hw₁.unused_notMem hfresh
    have hmem : ∀ i, Live e.blocks i → i ∈ POOLSTART :: l := fun i hi =>
      List.mem_cons_of_mem _ (hw₁.mem_iff.mpr ((hsz₁ i).mpr hi))
    have hdead : ¬Live e.blocks h := fun hl => hnot (hmem h hl)
    have hw' := hw₁.insert hs hfresh hsize hfit hins
    refine .placed (c := contents b' ram' h) hcan (view_none.mpr hdead) ?_
      ⟨⟨_, hw'⟩, ?_, moved.below⟩
    · simp [contents, hins.new]
    · funext i
      by_cases hi : i = h
      · subst hi
        rw [Function.update_self, view_some]
        exact ⟨hw'.mem_iff.mp ((mem_insert_tail hs).mpr (.inl rfl)), rfl⟩
      · rw [Function.update_of_ne hi]
        have hiff : Live b' i ↔ Live e.blocks i := by
          rw [← hw'.mem_iff, mem_insert_tail hs, ← hsz₁, ← hw₁.mem_iff]
          simp [hi]
        refine view_congr hiff fun hl => ?_
        obtain ⟨h1, h2⟩ := hins.stays hi
        rw [← moved.contents i hl, contents, contents, h1, h2]

theorem allocBlock_valid (hv : e.Valid) (hsize : 1 ≤ size) (halloc : e.allocBlock size = some (e', h)) : e'.Valid := by
  obtain ⟨e₁, h₁, halloc₁, hres, -⟩ := allocBlock_ok hv hsize
  obtain ⟨rfl, rfl⟩ := Prod.mk.inj (Option.some.inj (halloc₁.symm.trans halloc))
  cases hres with
  | placed _ _ _ hch => exact hch.valid
  | failed _ hch => exact hch.valid

theorem freeBlock_ok (hv : e.Valid) (h : Handle) :
    ∃ e', e.freeBlock h = some e' ∧ Changed e e' (Function.update e.view h none) ∧
      e' = { e with blocks := e'.blocks } := by
  obtain ⟨l, hw⟩ := hv
  obtain ⟨b', l', hfree, hres⟩ := MemoryPool.freeBlock_ok hw h
  refine ⟨{ e with blocks := b' }, by simp [freeBlock, hfree], ?_, rfl⟩
  cases hres with
  | ignored hnot =>
    have hnone : e.view h = none := view_none.mpr fun hl => hnot (hw.mem_iff.mpr hl)
    rw [Function.update_eq_self_iff.mpr hnone.symm]
    exact .refl ⟨l, hw⟩
  | freed hs her hw' =>
    rename_i A B p
    refine ⟨⟨_, hw'⟩, ?_, fun _ _ => rfl⟩
    funext i
    have hiff : Live b' i ↔ Live e.blocks i ∧ i ≠ h := by
      rw [← hw'.mem_iff, mem_erase_tail hw.nodup hs, hw.mem_iff]
    by_cases hi : i = h
    · subst hi
      rw [Function.update_self, view_none, hiff]
      simp
    · rw [Function.update_of_ne hi]
      have hkeep : (b' i).begin = (e.blocks i).begin ∧ (b' i).size = (e.blocks i).size := by
        by_cases hp : i = p
        · rw [hp, her.pred]; exact ⟨rfl, rfl⟩
        · rw [her.other i hi hp]; exact ⟨rfl, rfl⟩
      refine view_congr (by simp only [hiff]; simp [hi]) fun _ => ?_
      rw [contents, contents, hkeep.1, hkeep.2]

theorem resizeBlockTo_ok (hv : e.Valid) (hc : e.view h = some c) (hsize : 1 ≤ size)
    (hp : position + size ≤ c.length) :
    Changed e (e.resizeBlockTo h position size)
      (Function.update e.view h (some ((c.drop position).take size))) := by
  obtain ⟨l, hw⟩ := hv
  obtain ⟨hl, hcont⟩ := view_some.mp hc
  have hlen := view_length hc
  obtain ⟨heq, hw'⟩ := MemoryPool.resizeBlockTo_ok hw (hw.mem_iff.mpr hl) hsize
    (hlen ▸ hp)
  refine ⟨⟨l, hw'⟩, ?_, fun _ _ => rfl⟩
  funext i
  have hlive : Live (e.resizeBlockTo h position size).blocks i ↔ Live e.blocks i := by
    rw [← hw.mem_iff]; exact hw'.mem_iff.symm
  have hblocks : (e.resizeBlockTo h position size).blocks = Function.update e.blocks h
      ⟨(e.blocks h).begin + position, size, (e.blocks h).nextblock⟩ := heq
  by_cases hi : i = h
  · subst hi
    rw [Function.update_self, view_some]
    refine ⟨hlive.mpr hl, ?_⟩
    rw [contents, hblocks, Function.update_self, ← hcont, contents, load_drop,
      load_take (by omega)]
    rfl
  · rw [Function.update_of_ne hi]
    refine view_congr hlive fun _ => ?_
    rw [contents, contents, hblocks, Function.update_of_ne hi]
    rfl

theorem resizeBlock_ok (hv : e.Valid) (hc : e.view h = some c) (hp : position < c.length) :
    Changed e (e.resizeBlock h position) (Function.update e.view h (some (c.drop position))) := by
  have hlen := view_length hc
  have heq : e.resizeBlock h position = e.resizeBlockTo h position (c.length - position) := by
    obtain ⟨l, hw⟩ := hv
    rw [resizeBlock, resizeBlockTo, hlen, ← MemoryPool.resizeBlock_eq hw
      (hw.mem_iff.mpr (view_some.mp hc).1) (by omega)]
  have hok := resizeBlockTo_ok hv hc (show 1 ≤ c.length - position by omega)
    (show position + (c.length - position) ≤ c.length by omega)
  rwa [heq, ← List.take_of_length_le (l := c.drop position) (i := c.length - position) (by simp)]

/-- Whether the pool can allocate depends on the sizes of the blocks alone. -/
theorem canAlloc_of_view {k : Nat}
    (hview : ∀ h, (e'.view h).map List.length = (e.view h).map List.length) :
    CanAlloc e'.blocks k ↔ CanAlloc e.blocks k := by
  have hsize : ∀ (x : Enc28J60Network), ∀ h, POOLOFFSET ≤ h → h ≤ MEMPOOL_NUM_MEMBLOCKS →
      (x.blocks h).size = ((x.view h).map List.length).getD 0 := by
    intro x h h1 h2
    by_cases hl : Live x.blocks h
    · simp [view, hl, contents]
    · have : ¬0 < (x.blocks h).size := fun h3 => hl ⟨h1, h2, h3⟩
      simp only [view, if_neg hl, Option.map_none, Option.getD_none]
      omega
  have heq : ∀ h ∈ List.range' POOLOFFSET MEMPOOL_NUM_MEMBLOCKS,
      (e'.blocks h).size = (e.blocks h).size := by
    intro h hh
    obtain ⟨h1, h2⟩ := mem_descriptors.mp hh
    rw [hsize e' h h1 h2, hsize e h h1 h2, hview]
  have hin : inUse e'.blocks = inUse e.blocks := by
    simp only [inUse, total]
    rw [List.map_congr_left heq]
  have hun : (unused e'.blocks).isSome = (unused e.blocks).isSome := by
    simp only [unused, List.isSome_find?]
    rw [Bool.eq_iff_iff, List.any_eq_true, List.any_eq_true]
    exact exists_congr fun h => and_congr_right fun hh => by rw [heq h hh]
  rw [CanAlloc, CanAlloc, hin, hun]

end

end UIPEthernet.Enc28J60Network
