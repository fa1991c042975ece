import UIPEthernet.Enc28J60Network

/-!
# Addresses in the receive ring

The controller stores a frame as a next pointer of 2 bytes, a status vector of
4 bytes and the bytes of the frame, around the end of the ring where needed.
`receivePacket`, `setReadPtr` and `copyPacket` each wrap an address of their
own, by one byte too few.
-/

namespace UIPEthernet.Enc28J60Network

def RING_SIZE : Nat := RXSTOP_INIT - RXSTART_INIT + 1

/-- The address of byte `p` of the frame whose next pointer lies at `ptr`. -/
def frameAddress (ptr p : Nat) : Nat := RXSTART_INIT + (ptr - RXSTART_INIT + 6 + p) % RING_SIZE

/-- The source address for the DMA in `copyPacket`. -/
def copySource (e : Enc28J60Network) (handle : Handle) (position : Nat) : Nat :=
  e.readStart handle position % MEMORY_SIZE

variable {e e' : Enc28J60Network} {ptr p : Nat}

/-- What the expressions of the code do behind the end of the ring. -/
def wrapped (a : Nat) : Nat := if a > RXSTOP_INIT then a - RXSTOP_INIT + RXSTART_INIT else a

theorem wrap_eq {a : Nat} (ha : a < 65536) :
    (if a > RXSTOP_INIT then add16 (sub16 a RXSTOP_INIT) RXSTART_INIT else a) = wrapped a := by
  have hstart : RXSTART_INIT = 0 := rfl
  unfold wrapped
  split
  · rename_i hend
    rw [sub16_eq (Nat.le_of_lt hend) ha, hstart, add16_eq (by omega)]
  · rfl

theorem receivePacket_begin (hptr : e.nextPacketPtr ≤ RXSTOP_INIT)
    (h : e.receivePacket = (e', UIP_RECEIVEBUFFERHANDLE)) :
    e'.receivePkt.begin = wrapped (e.nextPacketPtr + 6) := by
  have hstop : RXSTOP_INIT = 2047 := rfl
  have hnone : ¬(NOBLOCK = UIP_RECEIVEBUFFERHANDLE) := by decide
  have hadd : add16 e.nextPacketPtr 6 = e.nextPacketPtr + 6 := add16_eq (by omega)
  unfold receivePacket at h
  split at h
  · simp only [hadd] at h
    rw [wrap_eq (by omega)] at h
    split at h
    · cases h
      rfl
    · exact absurd (congrArg Prod.snd h) hnone
  · exact absurd (congrArg Prod.snd h) hnone

theorem readStart_wrapped (h : e.receivePkt.begin + p < 65536) :
    e.readStart UIP_RECEIVEBUFFERHANDLE p = wrapped (e.receivePkt.begin + p) := by
  have hadd : add16 e.receivePkt.begin p = e.receivePkt.begin + p := add16_eq h
  simp only [readStart, packet, if_true, true_and]
  rw [hadd]
  exact wrap_eq h

theorem wrapped_le {a : Nat} (ha : a ≤ 2 * RXSTOP_INIT) : wrapped a ≤ RXSTOP_INIT := by
  have hstart : RXSTART_INIT = 0 := rfl
  unfold wrapped
  split <;> omega

/-- The two wraps of the code meet the address in the ring exactly where the
frame has not passed the end of the ring yet. -/
theorem wrapped_wrapped (hptr : ptr ≤ RXSTOP_INIT) (hp : p + 6 < RING_SIZE) :
    wrapped (wrapped (ptr + 6) + p) = frameAddress ptr p ↔ ptr + 6 + p ≤ RXSTOP_INIT := by
  have hstart : RXSTART_INIT = 0 := rfl
  have hstop : RXSTOP_INIT = 2047 := rfl
  have hsize : RING_SIZE = 2048 := rfl
  rw [frameAddress, hsize, hstart, Nat.zero_add, Nat.sub_zero]
  constructor
  · intro he
    unfold wrapped at he
    split at he <;> split at he <;> omega
  · intro hend
    have hfirst : wrapped (ptr + 6) = ptr + 6 := if_neg (by omega)
    rw [hfirst, wrapped, if_neg (by omega), Nat.mod_eq_of_lt (by omega)]

/-- For a frame that fits the ring, `setReadPtr` and `copyPacket` go to byte `p`
exactly where the frame has not passed the end of the ring yet. -/
theorem ring_addresses (hptr : e.nextPacketPtr ≤ RXSTOP_INIT)
    (hreceive : e.receivePacket = (e', UIP_RECEIVEBUFFERHANDLE))
    (hfits : 6 + e'.receivePkt.size ≤ RING_SIZE) (hp : p < e'.receivePkt.size) (len : Nat) :
    ((e'.setReadPtr UIP_RECEIVEBUFFERHANDLE p len).1 = frameAddress e.nextPacketPtr p ∧
      e'.copySource UIP_RECEIVEBUFFERHANDLE p = frameAddress e.nextPacketPtr p) ↔
    e.nextPacketPtr + 6 + p ≤ RXSTOP_INIT := by
  have hstop : RXSTOP_INIT = 2047 := rfl
  have hsize : RING_SIZE = 2048 := rfl
  have hmem : MEMORY_SIZE = 8192 := rfl
  have hbegin := receivePacket_begin hptr hreceive
  have hle : wrapped (e.nextPacketPtr + 6) ≤ RXSTOP_INIT := wrapped_le (by omega)
  have hread : e'.readStart UIP_RECEIVEBUFFERHANDLE p = wrapped (wrapped (e.nextPacketPtr + 6) + p) := by
    rw [readStart_wrapped (by omega), hbegin]
  have hmod : e'.copySource UIP_RECEIVEBUFFERHANDLE p = wrapped (wrapped (e.nextPacketPtr + 6) + p) := by
    rw [copySource, hread, Nat.mod_eq_of_lt]
    have := wrapped_le (show wrapped (e.nextPacketPtr + 6) + p ≤ 2 * RXSTOP_INIT by omega)
    omega
  have hset : (e'.setReadPtr UIP_RECEIVEBUFFERHANDLE p len).1 = e'.copySource UIP_RECEIVEBUFFERHANDLE p := rfl
  rw [hset, hmod, and_self]
  exact wrapped_wrapped hptr (by omega)

/-- A frame of 60 bytes whose next pointer lies at `ptr`. -/
def received (ptr : Nat) : Enc28J60Network :=
  { init (fun a => if a = ptr + 2 then 64 else if a = ptr + 4 then 0x80 else 0) [] with
    nextPacketPtr := ptr, EPKTCNT := 1 }

theorem received_ok (h : ptr = 0 ∨ ptr = 2042) : (received ptr).nextPacketPtr ≤ RXSTOP_INIT ∧
    (received ptr).receivePacket = ((received ptr).receivePacket.1, UIP_RECEIVEBUFFERHANDLE) ∧
    (received ptr).receivePacket.1.receivePkt.size = 60 := by
  rcases h with rfl | rfl
  · exact ⟨by decide, Prod.ext rfl (by decide), by decide⟩
  · exact ⟨by decide, Prod.ext rfl (by decide), by decide⟩

theorem ring_addresses_example :
    ((received 0).receivePacket.1.setReadPtr UIP_RECEIVEBUFFERHANDLE 42 8).1 = frameAddress 0 42 ∧
    (received 0).receivePacket.1.copySource UIP_RECEIVEBUFFERHANDLE 42 = frameAddress 0 42 := by
  obtain ⟨hptr, hreceive, hsize⟩ := received_ok (.inl rfl)
  exact (ring_addresses hptr hreceive (by rw [hsize]; decide) (show 42 < _ by rw [hsize]; decide) 8).mpr
    (by decide)

/-- A frame that starts at the first byte of the ring is read from the second. -/
theorem wrapped_frame_shifted :
    (received 2042).receivePacket.2 = UIP_RECEIVEBUFFERHANDLE ∧
    (received 2042).nextPacketPtr = 2042 ∧ (received 2042).receivePacket.1.receivePkt.size = 60 ∧
    frameAddress 2042 0 = 0 ∧
    ((received 2042).receivePacket.1.setReadPtr UIP_RECEIVEBUFFERHANDLE 0 14).1 = 1 ∧
    (received 2042).receivePacket.1.copySource UIP_RECEIVEBUFFERHANDLE 0 = 1 := by
  decide

end UIPEthernet.Enc28J60Network
