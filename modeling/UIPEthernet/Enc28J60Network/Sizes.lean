import UIPEthernet.Enc28J60Network.Memory

/-!
# Sizes of blocks, and the front of a frame

What a call does to the sizes in the table, and which bytes are at the front
of a transmitted frame, whatever the chain of the pool looks like.
-/

namespace UIPEthernet.MemoryPool

variable {b b' : Blocks} {best h j : Handle} {size : Nat}

theorem update_size {m : Memblock} {i : Handle} (hm : m.size = (b i).size) (j : Handle) :
    (Function.update b i m j).size = (b j).size := by
  by_cases hj : j = i
  · rw [hj, Function.update_self, hm]
  · rw [Function.update_of_ne hj]

theorem collect_size {mv : Nat → Nat → Nat → σ → Option σ} {fuel : Nat} {cur last : Handle} {s s' : σ}
    (hcollect : collect mv fuel cur b s = some (b', s', last)) (j : Handle) : (b' j).size = (b j).size := by
  induction fuel generalizing cur b s with
  | zero => cases hcollect
  | succ fuel ih =>
    simp only [collect] at hcollect
    split at hcollect
    · cases hcollect
      rfl
    · split at hcollect
      · obtain ⟨s₁, -, hcollect⟩ := Option.bind_eq_some_iff.mp hcollect
        rw [ih hcollect]
        exact update_size (by rfl) j
      · exact ih hcollect

/-- A new block takes a descriptor with size 0. -/
structure Taken (b b' : Blocks) (h : Handle) (size : Nat) : Prop where
  others : ∀ j, j ≠ h → (b' j).size = (b j).size
  handle : h ≤ MEMPOOL_NUM_MEMBLOCKS
  taken : h ≠ NOBLOCK → (b h).size = 0 ∧ (b' h).size = size

theorem found_taken (hfound : found b best size = (b', h)) : h = NOBLOCK ∧ b' = b ∨ Taken b b' h size := by
  simp only [found] at hfound
  cases hunused : unused b with
  | none =>
    rw [hunused] at hfound
    obtain ⟨rfl, rfl⟩ := Prod.mk.inj hfound
    exact .inl ⟨rfl, rfl⟩
  | some cur =>
    rw [hunused] at hfound
    obtain ⟨rfl, rfl⟩ := Prod.mk.inj hfound
    have hzero : (b cur).size = 0 := by simpa using List.find?_some hunused
    refine .inr ⟨fun j hj => ?_, (unused_ok hunused).2.1, fun _ => ⟨hzero, ?_⟩⟩
    · rw [update_size (by rfl), Function.update_of_ne hj]
    · rw [update_size (by rfl), Function.update_self]

theorem freesize_lt (b : Blocks) (cur : Handle) : freesize b cur < 65536 := Nat.mod_lt _ (by decide)

theorem search_lt {fuel bestsize : Nat} {cur : Handle} {best r : Option Handle}
    (hsearch : search b size fuel cur best bestsize = some r) : r = best ∨ size < 65536 := by
  have hfree := freesize_lt b cur
  induction fuel generalizing cur best bestsize with
  | zero => cases hsearch
  | succ fuel ih =>
    simp only [search] at hsearch
    split at hsearch
    · rename_i hexact
      exact .inr (hexact ▸ hfree)
    · by_cases hbetter : size < freesize b cur ∧ freesize b cur < bestsize
      · exact .inr (hbetter.1.trans hfree)
      · rw [if_neg hbetter, if_neg hbetter] at hsearch
        split at hsearch
        · exact .inl (Option.some.inj hsearch).symm
        · exact ih hsearch (freesize_lt b _)

theorem unlink_size {fuel : Nat} {prev : Handle} (hunlink : unlink h fuel prev b = some b') (hj : j ≠ h) :
    (b' j).size = (b j).size := by
  induction fuel generalizing prev with
  | zero => cases hunlink
  | succ fuel ih =>
    simp only [unlink] at hunlink
    split at hunlink
    · rename_i hnext
      cases hunlink
      rw [Function.update_of_ne (hnext ▸ hj)]
      exact update_size (by rfl) j
    · split at hunlink
      · cases hunlink
        rfl
      · exact ih hunlink

theorem freeBlock_size (hfree : freeBlock b h = some b') (hj : j ≠ h) : (b' j).size = (b j).size := by
  rw [freeBlock] at hfree
  split at hfree
  · cases hfree
    rfl
  · exact unlink_size hfree hj

end UIPEthernet.MemoryPool

namespace UIPEthernet.Enc28J60Network

open MemoryPool

variable {e e' : Enc28J60Network} {h j : Handle} {size : Nat}

theorem allocBlock_taken (halloc : e.allocBlock size = some (e', h)) :
    (h = NOBLOCK ∧ ∀ j, (e'.blocks j).size = (e.blocks j).size) ∨ Taken e.blocks e'.blocks h size := by
  have hfrom : ∀ {b b' h} best, (∀ j, (b j).size = (e.blocks j).size) → found b best size = (b', h) →
      (h = NOBLOCK ∧ ∀ j, (b' j).size = (e.blocks j).size) ∨ Taken e.blocks b' h size := by
    intro b b' h best hsame hfound
    rcases found_taken hfound with ⟨rfl, rfl⟩ | ht
    · exact .inl ⟨rfl, hsame⟩
    · exact .inr ⟨fun j hj => (ht.others j hj).trans (hsame j), ht.handle, fun hh =>
        ⟨(hsame h).symm.trans (ht.taken hh).1, (ht.taken hh).2⟩⟩
  obtain ⟨⟨blocks, ram, h'⟩, hpool, halloc⟩ := Option.bind_eq_some_iff.mp halloc
  cases halloc
  simp only [MemoryPool.allocBlock, Option.bind_eq_bind] at hpool
  obtain ⟨best, -, hpool⟩ := Option.bind_eq_some_iff.mp hpool
  cases best with
  | some best =>
    cases hpool
    exact hfrom best (fun _ => rfl) rfl
  | none =>
    obtain ⟨⟨b, ram', last⟩, hcollect, hpool⟩ := Option.bind_eq_some_iff.mp hpool
    split at hpool
    · cases hpool
      exact hfrom last (collect_size hcollect) rfl
    · cases hpool
      exact .inl ⟨rfl, collect_size hcollect⟩

theorem allocBlock_handle (halloc : e.allocBlock size = some (e', h)) : h ≤ MEMPOOL_NUM_MEMBLOCKS := by
  rcases allocBlock_taken halloc with ⟨rfl, -⟩ | ht
  · exact Nat.zero_le _
  · exact ht.handle

/-- What is allocated is not longer than 16 bits say. -/
theorem allocBlock_lt (halloc : e.allocBlock size = some (e', h)) (hh : h ≠ NOBLOCK) : size < 65536 := by
  obtain ⟨⟨blocks, ram, h'⟩, hpool, halloc⟩ := Option.bind_eq_some_iff.mp halloc
  cases halloc
  simp only [MemoryPool.allocBlock, Option.bind_eq_bind] at hpool
  obtain ⟨best, hsearch, hpool⟩ := Option.bind_eq_some_iff.mp hpool
  cases best with
  | some best => exact (search_lt hsearch).resolve_left fun he => Option.some_ne_none _ he
  | none =>
    obtain ⟨⟨b, ram', last⟩, -, hpool⟩ := Option.bind_eq_some_iff.mp hpool
    split at hpool
    · rename_i hfits
      exact Nat.lt_of_le_of_lt hfits (Nat.mod_lt _ (by decide))
    · cases hpool
      exact absurd rfl hh

/-- Blocks in use keep their sizes. -/
theorem allocBlock_size (halloc : e.allocBlock size = some (e', h)) (hj : (e.blocks j).size ≠ 0)
    (hne : j ≠ NOBLOCK) : j ≠ h ∧ (e'.blocks j).size = (e.blocks j).size := by
  rcases allocBlock_taken halloc with ⟨rfl, hsame⟩ | ht
  · exact ⟨hne, hsame j⟩
  · have hdiff : j ≠ h := by
      rintro rfl
      exact hj (ht.taken hne).1
    exact ⟨hdiff, ht.others j hdiff⟩

theorem allocBlock_new (halloc : e.allocBlock size = some (e', h)) (hh : h ≠ NOBLOCK) :
    (e'.blocks h).size = size := by
  rcases allocBlock_taken halloc with ⟨hno, -⟩ | ht
  · exact absurd hno hh
  · exact (ht.taken hh).2

theorem freeBlock_size (hfree : e.freeBlock h = some e') (hj : j ≠ h) :
    (e'.blocks j).size = (e.blocks j).size := by
  obtain ⟨b, hpool, heq⟩ := Option.bind_eq_some_iff.mp hfree
  cases heq
  exact MemoryPool.freeBlock_size hpool hj

theorem writePacket_blocks (e : Enc28J60Network) (h : Handle) (position : Nat) (buffer : List Byte) :
    (e.writePacket h position buffer).1.blocks = e.blocks := rfl

theorem resizeBlockTo_self (position : Nat) : ((e.resizeBlockTo h position size).blocks h).size = size := by
  simp only [resizeBlockTo, MemoryPool.resizeBlockTo, Function.update_self]

theorem resizeBlockTo_other (position : Nat) (hj : j ≠ h) :
    ((e.resizeBlockTo h position size).blocks j).size = (e.blocks j).size := by
  simp only [resizeBlockTo, MemoryPool.resizeBlockTo, Function.update_of_ne hj]

theorem resizeBlock_self (position : Nat) : ((e.resizeBlock h position).blocks h).size = sub16 (e.blocks h).size position := by
  simp only [resizeBlock, MemoryPool.resizeBlock, Function.update_self]

theorem resizeBlock_other (position : Nat) (hj : j ≠ h) : ((e.resizeBlock h position).blocks j).size = (e.blocks j).size := by
  simp only [resizeBlock, MemoryPool.resizeBlock, Function.update_of_ne hj]

theorem readPacket_length (position len : Nat) : (e.readPacket h position len).length = clip (e.packet h) position len :=
  readBuffer_length ..

/-- A block that is not read up to its end is cut at the front. -/
theorem resizeBlock_rest {len : Nat} (hh : h ≠ NOBLOCK) (hhandle : h ≤ MEMPOOL_NUM_MEMBLOCKS) (hlt : (e.blocks h).size < 65536)
    (hrest : (e.readPacket h 0 len).length ≠ e.blockSize h) :
    ((e.resizeBlock h (e.readPacket h 0 len).length).blocks h).size ≠ 0 ∧
      ((e.resizeBlock h (e.readPacket h 0 len).length).blocks h).size < 65536 := by
  have hring : h ≠ UIP_RECEIVEBUFFERHANDLE := by
    rintro rfl
    exact absurd hhandle (by decide)
  have hsize : e.blockSize h = (e.blocks h).size := by rw [blockSize, if_neg hh, if_neg hring]
  have hpacket : e.packet h = e.blocks h := if_neg hring
  have hstart : sub16 (e.blocks h).size 0 = (e.blocks h).size := sub16_eq (Nat.zero_le _) hlt
  have hle : (e.readPacket h 0 len).length ≤ (e.blocks h).size := by
    rw [readPacket_length, hpacket, clip, hstart]
    split <;> omega
  rw [hsize] at hrest
  rw [resizeBlock_self, sub16_eq hle hlt]
  omega

theorem copyPacket_blocks {dest destPos src srcPos len : Nat} (h : e.copyPacket dest destPos src srcPos len = some e') :
    e'.blocks = e.blocks := by
  obtain ⟨ram, -, h⟩ := Option.bind_eq_some_iff.mp h
  cases h
  rfl

theorem copyPacket_sent {dest destPos src srcPos len : Nat} (h : e.copyPacket dest destPos src srcPos len = some e') :
    e'.sent = e.sent := by
  obtain ⟨ram, -, h⟩ := Option.bind_eq_some_iff.mp h
  cases h
  rfl

theorem sendPacket_blocks (e : Enc28J60Network) (h : Handle) : (e.sendPacket h).1.blocks = e.blocks := by
  unfold sendPacket
  cases e.transmissions with
  | nil => rfl
  | cons t rest => rfl

theorem freeBlock_sent (hfree : e.freeBlock h = some e') :
    e'.sent = e.sent := by
  obtain ⟨b, -, heq⟩ := Option.bind_eq_some_iff.mp hfree
  cases heq
  rfl

/-- Freeing a block is a matter of the pool. -/
theorem freeBlock_congr {e₁ : Enc28J60Network} (hblocks : e₁.blocks = e.blocks) (hfree : e.freeBlock h = some e') :
    ∃ e₁', e₁.freeBlock h = some e₁' ∧ e₁'.sent = e₁.sent := by
  obtain ⟨b, hpool, -⟩ := Option.bind_eq_some_iff.mp hfree
  rw [← hblocks] at hpool
  exact ⟨{ e₁ with blocks := b }, Option.bind_eq_some_iff.mpr ⟨b, hpool, rfl⟩, rfl⟩

theorem allocBlock_sent (halloc : e.allocBlock size = some (e', h)) : e'.sent = e.sent := by
  obtain ⟨⟨b, ram, h'⟩, -, heq⟩ := Option.bind_eq_some_iff.mp halloc
  cases heq
  rfl

-- ---------------------------------------------------------------------------
-- What the write buffer register leaves in the memory
-- ---------------------------------------------------------------------------

variable {data : List Byte} {a x : Nat} {ram : Nat → Byte}

theorem nextWrite_add (a i : Nat) : (nextWrite a + i) % MEMORY_SIZE = (a + (i + 1)) % MEMORY_SIZE := by
  rw [nextWrite, Nat.mod_add_mod, Nat.add_assoc, Nat.add_comm 1 i]

theorem nextWrite_lt (a : Nat) : nextWrite a < MEMORY_SIZE := Nat.mod_lt _ (by decide)

theorem writeBuffer_other (hx : ∀ i < data.length, x ≠ (a + i) % MEMORY_SIZE) (ha : a < MEMORY_SIZE) :
    writeBuffer data a ram x = ram x := by
  induction data generalizing a ram with
  | nil => rfl
  | cons y data ih =>
    have hfirst : x ≠ a := by simpa [Nat.mod_eq_of_lt ha] using hx 0 (by simp)
    rw [writeBuffer, ih ?_ (nextWrite_lt a), Function.update_of_ne hfirst]
    intro i hi
    rw [nextWrite_add]
    exact hx (i + 1) (by simpa using hi)

theorem writeBuffer_get {i : Nat} (hi : i < data.length) (ha : a < MEMORY_SIZE)
    (hlen : data.length ≤ MEMORY_SIZE) :
    writeBuffer data a ram ((a + i) % MEMORY_SIZE) = data[i] := by
  induction data generalizing a ram i with
  | nil => simp at hi
  | cons y data ih =>
    have hm : MEMORY_SIZE = 8192 := rfl
    simp only [List.length_cons] at hi hlen
    cases i with
    | zero =>
      rw [writeBuffer, writeBuffer_other ?_ (nextWrite_lt a)]
      · simp [Nat.mod_eq_of_lt ha]
      · -- the rest does not come round to the first byte
        intro j hj
        rw [nextWrite_add, hm]
        omega
    | succ i =>
      rw [writeBuffer, ← nextWrite_add, ih (by omega) (nextWrite_lt a) (by omega)]
      rfl

/-- A frame is as long as its block, less the control byte and the padding. -/
theorem sendPacket_length (e : Enc28J60Network) (h : Handle) : ∃ frame ok, (e.sendPacket h).1.sent = (frame, ok) :: e.sent ∧
    frame.length = sub16 (e.blocks h).size (UIP_SENDBUFFER_OFFSET + UIP_SENDBUFFER_PADDING) := by
  have hcount : sub16 (sub16 (add16 (e.blocks h).begin (e.blocks h).size) (UIP_SENDBUFFER_OFFSET + UIP_SENDBUFFER_PADDING))
      (e.blocks h).begin = sub16 (e.blocks h).size (UIP_SENDBUFFER_OFFSET + UIP_SENDBUFFER_PADDING) := by
    unfold sub16 add16
    omega
  unfold sendPacket
  cases e.transmissions with
  | nil => exact ⟨_, false, rfl, by simp [hcount]⟩
  | cons t rest => exact ⟨_, t.ok, rfl, by simp [hcount]⟩

/-- What is written behind the room for the control byte is the front of the
frame. -/
theorem sendPacket_front (header : List Byte) (hfit : header.length + (UIP_SENDBUFFER_OFFSET + UIP_SENDBUFFER_PADDING) ≤
      (e.blocks h).size) (hsize : (e.blocks h).size < 65536) (hlen : header.length < MEMORY_SIZE) :
    ∃ rest ok, ((e.writePacket h UIP_SENDBUFFER_OFFSET header).1.sendPacket h).1.sent =
      (header ++ rest, ok) :: e.sent := by
  have ho : UIP_SENDBUFFER_OFFSET = 1 := rfl
  have hp : UIP_SENDBUFFER_PADDING = 7 := rfl
  have hm : MEMORY_SIZE = 8192 := rfl
  let start := (e.blocks h).begin
  let n := (e.blocks h).size - 8
  have hclip : clip (e.blocks h) UIP_SENDBUFFER_OFFSET header.length = header.length := by
    rw [clip, sub16_eq (by omega) hsize, if_neg (by omega)]
  have hstart : add16 start UIP_SENDBUFFER_OFFSET % MEMORY_SIZE = (start + 1) % MEMORY_SIZE := by
    rw [add16, ho, hm]
    omega
  have hcount : sub16 (sub16 (add16 start (e.blocks h).size) (UIP_SENDBUFFER_OFFSET + UIP_SENDBUFFER_PADDING))
      start = n := by
    unfold sub16 add16
    omega
  let ram := Function.update (writeBuffer header ((start + 1) % MEMORY_SIZE) e.ram) (start % MEMORY_SIZE) 0
  let frame := (List.range n).map fun i => ram ((start + 1 + i) % MEMORY_SIZE)
  have hfront : frame.take header.length = header := by
    refine List.ext_getElem (by simp [frame]; omega) fun i hi hi' => ?_
    have hother : (start + 1 + i) % MEMORY_SIZE ≠ start % MEMORY_SIZE := by
      rw [hm]
      omega
    have hget : writeBuffer header _ e.ram _ = _ :=
      writeBuffer_get hi' (Nat.mod_lt (start + 1) (by decide)) (Nat.le_of_lt hlen)
    rw [Nat.mod_add_mod] at hget
    simp only [List.getElem_take, frame, List.getElem_map, List.getElem_range, ram]
    rw [Function.update_of_ne hother, hget]
  have hsplit : frame = header ++ frame.drop header.length := by
    rw [← List.take_append_drop header.length frame, hfront, List.drop_left]
  have hsent : ∃ ok, ((e.writePacket h UIP_SENDBUFFER_OFFSET header).1.sendPacket h).1.sent =
      (frame, ok) :: e.sent := by
    simp only [writePacket, hclip, List.take_length]
    rw [show add16 (e.blocks h).begin UIP_SENDBUFFER_OFFSET % MEMORY_SIZE = (start + 1) % MEMORY_SIZE from hstart]
    unfold sendPacket
    cases e.transmissions with
    | nil => exact ⟨false, by simp only [frame, ram, ← hcount]; rfl⟩
    | cons t rest => exact ⟨t.ok, by simp only [frame, ram, ← hcount]; rfl⟩
  obtain ⟨ok, hsent⟩ := hsent
  exact ⟨frame.drop header.length, ok, hsplit ▸ hsent⟩

/-- A block that is filled up to the padding. -/
theorem sendPacket_filled (header : List Byte)
    (hfill : (e.blocks h).size = header.length + (UIP_SENDBUFFER_OFFSET + UIP_SENDBUFFER_PADDING))
    (hsize : (e.blocks h).size < 65536) (hlen : header.length < MEMORY_SIZE) :
    ∃ ok, ((e.writePacket h UIP_SENDBUFFER_OFFSET header).1.sendPacket h).1.sent = (header, ok) :: e.sent := by
  obtain ⟨rest, ok, hfront⟩ := sendPacket_front header (Nat.le_of_eq hfill.symm) hsize hlen
  obtain ⟨frame, ok', hsent, hcount⟩ := sendPacket_length (e.writePacket h UIP_SENDBUFFER_OFFSET header).1 h
  obtain ⟨hframe, -⟩ := List.cons.inj (hfront.symm.trans hsent)
  obtain ⟨rfl, rfl⟩ := Prod.mk.inj hframe
  rw [writePacket_blocks, hfill, sub16_eq (Nat.le_add_left _ _) (hfill ▸ hsize), Nat.add_sub_cancel, List.length_append] at hcount
  obtain rfl : rest = [] := List.length_eq_zero_iff.mp (by omega)
  rw [List.append_nil] at hfront
  exact ⟨ok, hfront⟩

end UIPEthernet.Enc28J60Network
