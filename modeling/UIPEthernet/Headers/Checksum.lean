import UIPEthernet.Headers.Fields
import UIPEthernet.Lib.OnesComplement
import UIPEthernet.Enc28J60Network.Memory

/-!
# The checksum loops

Both loops, over `uip_buf` and over a packet in the controller's memory, add
up words in one's complement, and the field that is stored makes the total of
a received packet have all bits set.
-/

namespace UIPEthernet

open Lib

/-- One word added in the code. -/
theorem addWord_eq {sum t : Nat} (hsum : sum < 65536) (ht : t < 65536) :
    (if add16 sum t < t then add16 (add16 sum t) 1 else add16 sum t) = fold16 (sum + t) := carry_eq hsum ht

theorem chksum_eq (b : Buf) {sum : Nat} (data len : Nat) (hsum : sum < 65536) :
    chksum b sum data len = fold16 (sum + wordSum (load b data len)) := by
  induction len using Nat.twoStepInduction generalizing sum data with
  | zero => exact (fold16_of_lt hsum).symm
  | one =>
    have := (b data).isLt
    simp only [chksum]
    rw [addWord_eq hsum (by omega)]
    simp [load, wordSum]
  | more len ih _ =>
    have hload : load b data (len + 2) = b data :: b (data + 1) :: load b (data + 2) len := by
      rw [load_succ, load_succ]
    simp only [chksum]
    rw [addWord_eq hsum (b.be16_lt data), ih (data + 2) (Nat.lt_succ_of_le (fold16_le _)), fold16_add, hload, wordSum,
      ← Nat.add_assoc]
    rfl

namespace Enc28J60Network

variable {ram : Nat → Byte}

/-- The loop over `len - i` bytes and the last one, `len` being its index. -/
theorem chksumLoop_eq {len fuel i erdpt sum : Nat} (hsum : sum < 65536) (hlen : len ≤ 65533) (hi : i ≤ len + 1)
    (hfuel : len + 1 < i + 2 * fuel) : chksumLoop ram len fuel i erdpt sum =
      some (fold16 (sum + wordSum (readBuffer ram (len + 1 - i) erdpt))) := by
  have hbyte : ∀ a, (ram a).toNat < 256 := fun a => (ram a).isLt
  induction fuel generalizing i erdpt sum with
  | zero => omega
  | succ fuel ih =>
    have hhigh := hbyte erdpt
    have hlow := hbyte (nextRead erdpt)
    rw [chksumLoop]
    split
    · obtain ⟨m, hm⟩ : ∃ m, len + 1 - i = m + 2 := ⟨len + 1 - i - 2, by omega⟩
      simp only
      rw [addWord_eq hsum (by omega), add16_eq (by omega),
        ih (Nat.lt_succ_of_le (fold16_le _)) (by omega) (by omega), hm,
        show len + 1 - (i + 2) = m by omega, fold16_add]
      simp [readBuffer, wordSum]
      congr 1
      omega
    · split
      · simp only
        rw [addWord_eq hsum (by omega), show len + 1 - i = 1 by omega]
        simp [readBuffer, wordSum, Nat.mul_comm]
      · rw [show len + 1 - i = 0 by omega, readBuffer, wordSum, Nat.add_zero, fold16_of_lt hsum]

end Enc28J60Network

-- ---------------------------------------------------------------------------
-- The field that is stored
-- ---------------------------------------------------------------------------

/-- What the checksum functions return for a total. -/
def chksumResult (t : Nat) : Nat := if fold16 t = 0 then 0xffff else htons (fold16 t)

theorem htons_bytes {h l : Nat} (hh : h < 256) (hl : l < 256) : htons (256 * h + l) = 256 * l + h := by
  unfold htons
  omega

theorem htons_not16 {x : Nat} (hx : x < 65536) : htons (not16 (htons x)) = 65535 - x := by
  obtain ⟨h, l, hh, hl, rfl⟩ : ∃ h l, h < 256 ∧ l < 256 ∧ x = 256 * h + l :=
    ⟨x / 256, x % 256, by omega, by omega, by omega⟩
  have hnot : not16 (256 * l + h) = 256 * (255 - l) + (255 - h) := by
    unfold not16
    omega
  rw [htons_bytes hh hl, hnot, htons_bytes (by omega) (by omega)]
  omega

/-- The complement of the result, stored in its field, is one of the sum. -/
theorem htons_complement {t : Nat} (ht : t ≠ 0) : htons (not16 (chksumResult t)) = 65535 - fold16 t := by
  have hne : fold16 t ≠ 0 := fun h => ht (fold16_eq_zero.mp h)
  rw [chksumResult, if_neg hne]
  exact htons_not16 (Nat.lt_succ_of_le (fold16_le t))

theorem chksumResult_full {t : Nat} (h : fold16 t = 65535) : chksumResult t = 0xffff := by
  rw [chksumResult, h]
  rfl

theorem chksumResult_stored (t : Nat) : chksumResult (t + htons (not16 (chksumResult t))) = 0xffff := by
  by_cases ht : t = 0
  · rw [ht]
    rfl
  · rw [htons_complement ht]
    exact chksumResult_full (fold16_complement ht)

/-- The field of a datagram, which is never 0. -/
def udpField (sum : Nat) : Nat := if not16 sum = 0 then 0xffff else not16 sum

theorem udpField_ne (sum : Nat) : udpField sum ≠ 0 := by
  unfold udpField
  split
  · decide
  · assumption

theorem udpField_lt (sum : Nat) : udpField sum < 65536 := by
  unfold udpField not16
  split <;> omega

theorem chksumResult_udpField {t : Nat} (ht : t ≠ 0) : chksumResult (t + htons (udpField (chksumResult t))) = 0xffff := by
  unfold udpField
  split
  · rename_i hzero
    -- the sum is 0xffff already
    have hfull : 65535 - fold16 t = 0 := by
      rw [← htons_complement ht, hzero]
      rfl
    have hsame := fold16_mod t
    have hle := fold16_le t
    refine chksumResult_full ?_
    rw [show htons 0xffff = 65535 from rfl, fold16_congr (b := 65535) (by omega) (by omega)]
    exact fold16_of_lt (by omega)
  · exact chksumResult_stored t

-- ---------------------------------------------------------------------------
-- Words of uip_buf
-- ---------------------------------------------------------------------------

theorem load_add (b : Buf) (a p n : Nat) : load b a (p + n) = load b a p ++ load b (a + p) n := by
  rw [← List.take_append_drop p (load b a (p + n)), load_take (Nat.le_add_right p n), load_drop,
    Nat.add_sub_cancel_left]

/-- The words before a field, the field, and those behind it. -/
theorem wordSum_field (b : Buf) (a k m : Nat) : wordSum (load b a (2 * k + (2 + m))) =
    wordSum (load b a (2 * k)) + b.be16 (a + 2 * k) + wordSum (load b (a + 2 * k + 2) m) := by
  have hfield : load b (a + 2 * k) (2 + m) =
      b (a + 2 * k) :: b (a + 2 * k + 1) :: load b (a + 2 * k + 2) m := by
    rw [Nat.add_comm 2 m, load_succ, load_succ]
  rw [load_add, wordSum_append k load_length, hfield, wordSum, ← Nat.add_assoc]
  rfl

/-- A field that was 0 adds what is stored in it. -/
theorem wordSum_putU16 (b : Buf) (a k m v : Nat) (hzero : b.be16 (a + 2 * k) = 0) :
    wordSum (load (b.putU16 (a + 2 * k) v) a (2 * k + (2 + m))) =
      wordSum (load b a (2 * k + (2 + m))) + htons v := by
  have hbefore : load (b.putU16 (a + 2 * k) v) a (2 * k) = load b a (2 * k) :=
    load_congr fun i hi => Buf.putU16_agree (i := a) (j := a + 2 * k) (.inr (Nat.le_refl _)) (a + i) (by omega) (by omega)
  have hbehind : load (b.putU16 (a + 2 * k) v) (a + 2 * k + 2) m = load b (a + 2 * k + 2) m :=
    load_congr fun i hi => Buf.putU16_agree (i := a + 2 * k + 2) (j := a + 2 * k + 2 + m) (.inl (by omega)) _
      (by omega) (by omega)
  rw [wordSum_field, wordSum_field, hbefore, hbehind, Buf.be16_putU16, hzero]
  omega

/-- The total of a segment or datagram with its pseudo header. -/
def upperTotal (b : Buf) (proto : Byte) (memlen : Nat) (payload : List Byte) : Nat :=
  b.be16 Offset.len - UIP_IPH_LEN + proto.toNat + wordSum (load b Offset.srcipaddr 8) +
    wordSum (load b (UIP_IPH_LEN + UIP_LLH_LEN) memlen) + wordSum payload

theorem Uip.ipchksum_eq (u : Uip) : u.ipchksum = chksumResult (wordSum (load u.uipBuf UIP_LLH_LEN UIP_IPH_LEN)) := by
  simp only [Uip.ipchksum]
  rw [chksum_eq _ _ _ (by decide), Nat.zero_add]
  rfl

end UIPEthernet
