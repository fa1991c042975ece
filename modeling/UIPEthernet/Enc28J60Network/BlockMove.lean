import UIPEthernet.Enc28J60Network.Refinement
import UIPEthernet.Enc28J60Network.Ring

/-!
# Block moves

`enc28J60_mempool_block_move_callback` computes the address of the last byte of
the source and lets the DMA run up to it. A source that runs past the end of
the receive ring is one byte too long for it.
-/

namespace UIPEthernet.Enc28J60Network

open Lib

-- ---------------------------------------------------------------------------
-- The DMA, cycle by cycle
-- ---------------------------------------------------------------------------

/-- The memory behind `n` cycles of the DMA. -/
def cycles : Nat → Nat → Nat → (Nat → Byte) → Nat → Byte
  | 0, _, _, ram => ram
  | n + 1, edmast, edmadst, ram =>
    cycles n (nextRead edmast) (nextWrite edmadst) (Function.update ram edmadst (ram edmast))

variable {src dest len n i edmand fuel : Nat} {ram ram' : Nat → Byte}

theorem dma_stops (hend : nextRead^[n] src = edmand) (hmiss : ∀ i < n, nextRead^[i] src ≠ edmand) (hfuel : n < fuel) :
    dma edmand fuel src dest ram = some (cycles (n + 1) src dest ram) := by
  induction n generalizing src dest fuel ram with
  | zero =>
    obtain ⟨fuel, rfl⟩ : ∃ k, fuel = k + 1 := ⟨fuel - 1, by omega⟩
    exact if_pos hend
  | succ n ih =>
    obtain ⟨fuel, rfl⟩ : ∃ k, fuel = k + 1 := ⟨fuel - 1, by omega⟩
    have hfirst : src ≠ edmand := hmiss 0 (Nat.succ_pos n)
    rw [dma, if_neg hfirst]
    exact ih hend (fun i hi => hmiss (i + 1) (Nat.succ_lt_succ hi)) (by omega)

/-- The cycles write where the destination pointer is. -/
theorem cycles_outside (hout : ∀ i < n, nextWrite^[i] dest ≠ a) : cycles n src dest ram a = ram a := by
  induction n generalizing src dest ram with
  | zero => rfl
  | succ n ih =>
    rw [cycles, ih fun i hi => hout (i + 1) (Nat.succ_lt_succ hi)]
    exact Function.update_of_ne (hout 0 (Nat.succ_pos n)).symm _ _

/-- Each cycle copies a byte, unless an earlier one has overwritten it or a
later one writes to its place. -/
theorem cycles_copied (hi : i < n) (hkeep : ∀ j < i, nextWrite^[j] dest ≠ nextRead^[i] src)
    (hlast : ∀ j < n, nextWrite^[j] dest = nextWrite^[i] dest → j = i) :
    cycles n src dest ram (nextWrite^[i] dest) = ram (nextRead^[i] src) := by
  induction n generalizing src dest ram i with
  | zero => exact absurd hi (Nat.not_lt_zero i)
  | succ n ih =>
    rw [cycles]
    cases i with
    | zero =>
      rw [cycles_outside fun j hj he => Nat.succ_ne_zero j (hlast (j + 1) (Nat.succ_lt_succ hj) he)]
      exact Function.update_self _ _ _
    | succ i =>
      have hstep : cycles n (nextRead src) (nextWrite dest) (Function.update ram dest (ram src))
          (nextWrite^[i] (nextWrite dest)) = Function.update ram dest (ram src) (nextRead^[i] (nextRead src)) := ih
        (Nat.lt_of_succ_lt_succ hi) (fun j hj => hkeep (j + 1) (Nat.succ_lt_succ hj))
        fun j hj he => Nat.succ.inj (hlast (j + 1) (Nat.succ_lt_succ hj) he)
      refine hstep.trans (Function.update_of_ne ?_ _ _)
      exact (hkeep 0 (Nat.succ_pos i)).symm

-- ---------------------------------------------------------------------------
-- Sources and destinations
-- ---------------------------------------------------------------------------

/-- The address of byte `i` of a source, around the ring if it starts there. -/
def sourceAddress (src i : Nat) : Nat :=
  if src ≤ RXSTOP_INIT then RXSTART_INIT + (src - RXSTART_INIT + i) % RING_SIZE else (src + i) % MEMORY_SIZE

theorem sourceAddress_ring (h : src ≤ RXSTOP_INIT) : sourceAddress src i = (src + i) % 2048 :=
  (if_pos h).trans (Nat.zero_add _)

theorem sourceAddress_memory (h : RXSTOP_INIT < src) : sourceAddress src i = (src + i) % 8192 :=
  if_neg (Nat.not_le_of_lt h)

/-- The read pointer goes around the ring, or up to the end of the memory and
then through the ring once. -/
theorem nextRead_iterate (hsrc : src < MEMORY_SIZE) (hi : src ≤ RXSTOP_INIT ∨ src + i < MEMORY_SIZE + RING_SIZE) :
    nextRead^[i] src = sourceAddress src i := by
  have hm : MEMORY_SIZE = 8192 := rfl
  have hr : RXSTOP_INIT = 2047 := rfl
  have hs : RXSTART_INIT = 0 := rfl
  have hsize : RING_SIZE = 2048 := rfl
  induction i with
  | zero =>
    rw [Function.iterate_zero, id]
    rcases Nat.lt_or_ge RXSTOP_INIT src with h | h
    · rw [sourceAddress_memory h]
      omega
    · rw [sourceAddress_ring h]
      omega
  | succ i ih =>
    rw [Function.iterate_succ_apply', ih (by omega), nextRead, hm]
    rcases Nat.lt_or_ge RXSTOP_INIT src with h | h
    · rw [sourceAddress_memory h, sourceAddress_memory h]
      split <;> omega
    · rw [sourceAddress_ring h, sourceAddress_ring h]
      split <;> omega

theorem nextWrite_iterate (hdest : dest < MEMORY_SIZE) : nextWrite^[i] dest = (dest + i) % 8192 := by
  have hm : MEMORY_SIZE = 8192 := rfl
  induction i with
  | zero => exact (Nat.mod_eq_of_lt hdest).symm
  | succ i ih =>
    rw [Function.iterate_succ_apply', ih, nextWrite, hm]
    omega

/-- The bytes of the source lie in the destination, and nothing else has
changed. -/
structure Moved (dest src len : Nat) (ram ram' : Nat → Byte) : Prop where
  copied : ∀ i < len, ram' (dest + i) = ram (sourceAddress src i)
  outside : ∀ a < MEMORY_SIZE, a < dest ∨ dest + len ≤ a → ram' a = ram a

/-- A destination in the transmit memory below the source, or clear of it. -/
structure Placed (dest src len : Nat) : Prop where
  source : src < MEMORY_SIZE
  nonempty : 1 ≤ len
  transmit : TXSTART_INIT ≤ dest ∧ dest + len ≤ TXSTOP_INIT + 1
  clear : dest < src ∨ ∀ i < len, sourceAddress src i < dest ∨ dest + len ≤ sourceAddress src i

/-- The source that the callback copies: it does not leave the ring it starts
in, and does not come to the end of the ring from the end of the memory. -/
def Copyable (src len : Nat) : Prop :=
  (src ≤ RXSTOP_INIT → src + len ≤ RXSTOP_INIT + 1) ∧ src + len ≤ MEMORY_SIZE + RING_SIZE

/-- What the DMA does when it is given the right end address. -/
theorem cycles_moved (hp : Placed dest src len) (hc : Copyable src len) :
    Moved dest src len ram (cycles len src dest ram) := by
  have hm : MEMORY_SIZE = 8192 := rfl
  have hr : RXSTOP_INIT = 2047 := rfl
  have hsize : RING_SIZE = 2048 := rfl
  have ht : TXSTART_INIT = 2048 := rfl
  have he : TXSTOP_INIT = 8191 := rfl
  obtain ⟨hsrc, hlen, ⟨hlow, hhigh⟩, hclear⟩ := hp
  obtain ⟨hring, hreach⟩ := hc
  have hwrite : ∀ j < len, nextWrite^[j] dest = dest + j := by
    intro j hj
    rw [nextWrite_iterate (by omega), Nat.mod_eq_of_lt (by omega)]
  constructor
  · intro i hi
    have hread : nextRead^[i] src = sourceAddress src i := nextRead_iterate hsrc (.inr (by omega))
    rw [← hwrite i hi, ← hread]
    refine cycles_copied hi (fun j hj => ?_) (fun j hj hsame => ?_)
    · rw [hwrite j (by omega), hread]
      rcases hclear with hbelow | hclear
      · rw [sourceAddress_memory (by omega)]
        omega
      · have := hclear i hi
        omega
    · rw [hwrite j hj, hwrite i hi] at hsame
      omega
  · intro a _ ha
    refine cycles_outside fun j hj => ?_
    rw [hwrite j hj]
    omega

-- ---------------------------------------------------------------------------
-- The callback
-- ---------------------------------------------------------------------------

/-- The end address that the callback computes. -/
def lastAddress (src len : Nat) : Nat :=
  (if src ≤ RXSTOP_INIT ∧ RXSTOP_INIT < src + len - 1 then src + len - 1 - (RXSTOP_INIT - RXSTART_INIT)
    else src + len - 1) % MEMORY_SIZE

theorem callback_dma (hp : Placed dest src len) (hlen : len ≠ 1) : mempoolBlockMoveCallback dest src len ram =
    dma (lastAddress src len) MEMORY_SIZE src dest ram := by
  have hm : MEMORY_SIZE = 8192 := rfl
  have hr : RXSTOP_INIT = 2047 := rfl
  have hs : RXSTART_INIT = 0 := rfl
  have ht : TXSTART_INIT = 2048 := rfl
  have he : TXSTOP_INIT = 8191 := rfl
  obtain ⟨hsrc, hpos, ⟨hlow, hhigh⟩, -⟩ := hp
  have hlast : add16 len (sub16 src 1) = src + len - 1 := by
    simp only [add16, sub16]
    omega
  have hback : RXSTOP_INIT < src + len - 1 →
      sub16 (src + len - 1) (RXSTOP_INIT - RXSTART_INIT) = src + len - 1 - (RXSTOP_INIT - RXSTART_INIT) := by
    intro h
    exact sub16_eq (by omega) (by omega)
  have hdest : dest % MEMORY_SIZE = dest := Nat.mod_eq_of_lt (by omega)
  rw [mempoolBlockMoveCallback, if_neg hlen, lastAddress]
  simp only [hlast, hdest, Nat.mod_eq_of_lt hsrc]
  split
  · rename_i h
    rw [hback h.2]
  · rfl

theorem callback_moved (hp : Placed dest src len) (hc : Copyable src len) :
    ∃ ram', mempoolBlockMoveCallback dest src len ram = some ram' ∧ Moved dest src len ram ram' := by
  have hm : MEMORY_SIZE = 8192 := rfl
  have hr : RXSTOP_INIT = 2047 := rfl
  have hsize : RING_SIZE = 2048 := rfl
  have ht : TXSTART_INIT = 2048 := rfl
  have he : TXSTOP_INIT = 8191 := rfl
  obtain ⟨hsrc, hpos, ⟨hlow, hhigh⟩, -⟩ := id hp
  obtain ⟨hring, hreach⟩ := id hc
  refine ⟨cycles len src dest ram, ?_, cycles_moved hp hc⟩
  by_cases hlen : len = 1
  · subst hlen
    rw [mempoolBlockMoveCallback, if_pos rfl, Nat.mod_eq_of_lt hsrc, Nat.mod_eq_of_lt (by omega)]
    rfl
  · obtain ⟨n, rfl⟩ : ∃ n, len = n + 1 := ⟨len - 1, by omega⟩
    have hread : ∀ i ≤ n, nextRead^[i] src = sourceAddress src i :=
      fun i hi => nextRead_iterate hsrc (.inr (by omega))
    rw [callback_dma hp hlen]
    refine dma_stops ?_ (fun i hi => ?_) (by omega)
    · rw [hread n (Nat.le_refl n), lastAddress, if_neg (by omega), hm]
      rcases Nat.lt_or_ge RXSTOP_INIT src with h | h
      · rw [sourceAddress_memory h]
        rfl
      · rw [sourceAddress_ring h]
        omega
    · rw [hread i (Nat.le_of_lt hi), lastAddress, if_neg (by omega), hm]
      rcases Nat.lt_or_ge RXSTOP_INIT src with h | h
      · rw [sourceAddress_memory h]
        omega
      · rw [sourceAddress_ring h]
        omega

/-- A source that passes the end of the ring: its end address is that of the
byte behind it, or never met, or met too early. -/
theorem callback_wrapped (hp : Placed dest src len) (hring : src ≤ RXSTOP_INIT) (hwrap : RXSTOP_INIT + 1 < src + len) :
    ∃ ram, ∀ ram', mempoolBlockMoveCallback dest src len ram = some ram' → ¬Moved dest src len ram ram' := by
  have hm : MEMORY_SIZE = 8192 := rfl
  have hr : RXSTOP_INIT = 2047 := rfl
  have hs : RXSTART_INIT = 0 := rfl
  have ht : TXSTART_INIT = 2048 := rfl
  have he : TXSTOP_INIT = 8191 := rfl
  obtain ⟨hsrc, hpos, ⟨hlow, hhigh⟩, -⟩ := id hp
  have hread : ∀ i, nextRead^[i] src = (src + i) % 2048 := fun i =>
    (nextRead_iterate hsrc (.inl hring)).trans (sourceAddress_ring hring)
  have hlast : lastAddress src len = src + len - 2048 := by
    rw [lastAddress, if_pos ⟨hring, by omega⟩, hm]
    omega
  by_cases hshort : len < 2048
  · -- one byte more than the source is copied
    refine ⟨fun a => if a = src + len - 2048 then 1 else 0, fun ram' hram hmoved => ?_⟩
    rw [callback_dma hp (by omega), hlast, dma_stops (n := len) (by rw [hread]; omega)
      (fun i hi => by rw [hread]; omega) (by omega)] at hram
    obtain rfl := Option.some.inj hram
    have hextra : cycles (len + 1) src dest (fun a => if a = src + len - 2048 then 1 else 0) (nextWrite^[len] dest) =
        if nextRead^[len] src = src + len - 2048 then 1 else 0 := cycles_copied
      (Nat.lt_succ_self len) (fun j hj => by rw [hread, nextWrite_iterate (by omega)]; omega)
      (fun j hj hsame => by rw [nextWrite_iterate (by omega), nextWrite_iterate (by omega)] at hsame; omega)
    rw [hread, nextWrite_iterate (by omega), hmoved.outside _ (by omega) (by omega), if_neg (by omega),
      if_pos (by omega)] at hextra
    exact absurd hextra (by decide)
  · by_cases hmet : src + len - 2048 ≤ RXSTOP_INIT
    · -- the end address is met on the way to the end of the ring
      refine ⟨fun a => if a = dest + (len - 1) then 1 else 0, fun ram' hram hmoved => ?_⟩
      rw [callback_dma hp (by omega), hlast, dma_stops (n := len - 2048) (by rw [hread]; omega)
        (fun i hi => by rw [hread]; omega) (by omega)] at hram
      obtain rfl := Option.some.inj hram
      have hkept := hmoved.copied (len - 1) (by omega)
      rw [cycles_outside (fun i hi => by rw [nextWrite_iterate (by omega)]; omega), if_pos rfl,
        sourceAddress_ring hring, if_neg (by omega)] at hkept
      exact absurd hkept (by decide)
    · refine ⟨fun _ => 0, fun ram' hram _ => ?_⟩
      rw [callback_dma hp (by omega), hlast, dma_never (by omega) (.inr hring) hsrc] at hram
      exact absurd hram.symm (Option.some_ne_none ram')

/-- A source that comes to the end of the ring from the end of the memory. -/
theorem callback_never (hp : Placed dest src len) (hmem : RXSTOP_INIT < src) (hfar : MEMORY_SIZE + RING_SIZE < src + len) :
    mempoolBlockMoveCallback dest src len ram = none := by
  have hm : MEMORY_SIZE = 8192 := rfl
  have hr : RXSTOP_INIT = 2047 := rfl
  have hsize : RING_SIZE = 2048 := rfl
  have ht : TXSTART_INIT = 2048 := rfl
  have he : TXSTOP_INIT = 8191 := rfl
  obtain ⟨hsrc, hpos, ⟨hlow, hhigh⟩, -⟩ := id hp
  have hlast : lastAddress src len = src + len - 1 - 8192 := by
    rw [lastAddress, if_neg (by omega), hm]
    omega
  rw [callback_dma hp (by omega), hlast]
  exact dma_never (by omega) (.inl (by omega)) hsrc

variable {e : Enc28J60Network} {h : Handle} {c : List Byte} {position srcPos : Nat}

/-- A copy out of the receive ring into a block leaves the other blocks. -/
theorem copyPacket_spares (hv : e.Valid) (hview : e.view h = some c) (hin : position + len ≤ c.length) (hlen : 1 ≤ len)
    (hring : e.readStart UIP_RECEIVEBUFFERHANDLE srcPos + len ≤ RXSTOP_INIT + 1) :
    ∃ e', e.copyPacket h position UIP_RECEIVEBUFFERHANDLE srcPos len = some e' ∧ ∀ i ≠ h, e'.view i = e.view i := by
  have hm : MEMORY_SIZE = 8192 := rfl
  have hr : RXSTOP_INIT = 2047 := rfl
  have hb := hv.bounds hview
  obtain ⟨e', hcopy, hch, -⟩ := copyPacket_ok hv hview hlen hin (.inr hring) (by omega) (.inr (by omega))
  refine ⟨e', hcopy, fun i hi => ?_⟩
  rw [hch.view]
  exact Function.update_of_ne hi _ _

/-- A block move writes its destination and nothing else, whatever the memory
holds, exactly where the source is one the callback copies; a copy out of the
receive ring then spares the neighbouring blocks. -/
theorem block_move (hp : Placed dest src len) :
    ((∀ ram, ∃ ram', mempoolBlockMoveCallback dest src len ram = some ram' ∧ Moved dest src len ram ram') ↔
      Copyable src len) ∧
    (Copyable src len → src ≤ RXSTOP_INIT → ∀ (e : Enc28J60Network) (h : Handle) (c : List Byte) (position srcPos : Nat),
      e.Valid → e.view h = some c → position + len ≤ c.length → e.readStart UIP_RECEIVEBUFFERHANDLE srcPos = src →
      ∃ e', e.copyPacket h position UIP_RECEIVEBUFFERHANDLE srcPos len = some e' ∧ ∀ i ≠ h, e'.view i = e.view i) := by
  refine ⟨⟨fun hall => ⟨fun hring => ?_, ?_⟩, fun hc ram => callback_moved hp hc⟩, ?_⟩
  · by_contra hwrap
    obtain ⟨ram, hnot⟩ := callback_wrapped hp hring (by omega)
    obtain ⟨ram', hram, hmoved⟩ := hall ram
    exact hnot ram' hram hmoved
  · have hm : MEMORY_SIZE = 8192 := rfl
    have hr : RXSTOP_INIT = 2047 := rfl
    have hsize : RING_SIZE = 2048 := rfl
    have ht : TXSTART_INIT = 2048 := rfl
    have he : TXSTOP_INIT = 8191 := rfl
    have htransmit := hp.transmit
    by_contra hfar
    obtain ⟨ram', hram, -⟩ := hall fun _ => 0
    rw [callback_never hp (by omega) (by omega)] at hram
    exact absurd hram.symm (Option.some_ne_none ram')
  · rintro hc hring e h c position srcPos hv hview hin rfl
    exact copyPacket_spares hv hview hin hp.nonempty (hc.1 hring)

/-- Ten bytes up to the end of the ring. -/
theorem block_move_example : ∃ ram', mempoolBlockMoveCallback 3000 2038 10 (fun a => BitVec.ofNat 8 a) = some ram' ∧
    Moved 3000 2038 10 (fun a => BitVec.ofNat 8 a) ram' := by
  have hp : Placed 3000 2038 10 :=
    ⟨by decide, by decide, by decide, .inr fun i hi => .inl (by rw [sourceAddress_ring (by decide)]; omega)⟩
  exact (block_move hp).1.mpr ⟨fun _ => by decide, by decide⟩ _

/-- Eleven bytes, one of them behind the end of the ring: the byte behind the
destination is overwritten. -/
theorem wrapped_move_overruns : Placed 3000 2038 11 ∧ ∃ ram',
    mempoolBlockMoveCallback 3000 2038 11 (fun a => if a = 1 then 7 else 0) = some ram' ∧
    ram' 3011 = 7 ∧ ¬Moved 3000 2038 11 (fun a => if a = 1 then 7 else 0) ram' := by
  refine ⟨⟨by decide, by decide, by decide, .inr fun i hi => .inl (by rw [sourceAddress_ring (by decide)]; omega)⟩, ?_⟩
  have hcompute : (mempoolBlockMoveCallback 3000 2038 11 fun a => if a = 1 then 7 else 0).map (· 3011) = some 7 := by
    decide +kernel
  obtain ⟨ram', hmove, hbyte⟩ := Option.map_eq_some_iff.mp hcompute
  refine ⟨ram', hmove, hbyte, fun hmoved => ?_⟩
  have hkept := hmoved.outside 3011 (by decide) (.inr (by decide))
  exact absurd (hbyte.symm.trans hkept) (by decide)

end UIPEthernet.Enc28J60Network
