import UIPEthernet.Uip.Checks

/-!
# The split checksum

`uip.c` sums a segment or datagram over one contiguous buffer. The library sums
the headers in `uip_buf` and the payload in the packet, and returns the same.
-/

namespace UIPEthernet

open Lib

/-- `upper_layer_chksum` of `uip.c`, over `uip_buf` alone. Its `chksum` is the
one of `UIPEthernetClass`. -/
def Uip.upperLayerChksum (u : Uip) (proto : Byte) : Nat :=
  let b := u.uipBuf
  let upperLayerLen := sub16 (b.be16 Offset.len) UIP_IPH_LEN
  let sum := add16 upperLayerLen proto.toNat
  let sum := chksum b sum Offset.srcipaddr 8
  let sum := chksum b sum (UIP_IPH_LEN + UIP_LLH_LEN) upperLayerLen
  if sum = 0 then 0xffff else htons sum

/-- The addresses, the protocol and the upper-layer length. -/
def pseudoHeader (b : Buf) (proto : Byte) (len : Nat) : List Byte :=
  load b Offset.srcipaddr 8 ++ [0, proto, BitVec.ofNat 8 (len / 256), BitVec.ofNat 8 len]

/-- The sum of RFC 1071 in network byte order, all bits set in place of 0. -/
def rfc1071 (l : List Byte) : Nat := if onesSum (words l) = 0 then 0xffff else htons (onesSum (words l))

variable {b : Buf} {proto : Byte} {memlen len : Nat} {payload segment : List Byte}

theorem rfc1071_eq (l : List Byte) : rfc1071 l = chksumResult (wordSum l) := by
  rw [rfc1071, chksumResult, onesSum_words]

theorem wordSum_pseudoHeader (hlen : len < 65536) (segment : List Byte) :
    wordSum (pseudoHeader b proto len ++ segment) = len + proto.toNat + wordSum (load b Offset.srcipaddr 8) + wordSum segment := by
  have hend : wordSum [0, proto, BitVec.ofNat 8 (len / 256), BitVec.ofNat 8 len] = len + proto.toNat := by
    simp only [wordSum, BitVec.toNat_ofNat, BitVec.ofNat_eq_ofNat]
    omega
  have haddr : wordSum (load b Offset.srcipaddr 8 ++ [0, proto, BitVec.ofNat 8 (len / 256), BitVec.ofNat 8 len]) =
      wordSum (load b Offset.srcipaddr 8) + _ := wordSum_append 4 load_length _
  rw [pseudoHeader, wordSum_append 6 (by simp), haddr, hend]
  omega

/-- The total that the library's function adds up is the one of the pseudo
header and the whole segment. -/
theorem upperTotal_eq (k : Nat) (hmem : memlen = 2 * k) (hlen : b.be16 Offset.len = UIP_IPH_LEN + len)
    (hlt : len < 65536) : upperTotal b proto memlen payload =
      wordSum (pseudoHeader b proto len ++ (load b (UIP_IPH_LEN + UIP_LLH_LEN) memlen ++ payload)) := by
  rw [wordSum_pseudoHeader hlt, wordSum_append k (by rw [load_length, hmem]), upperTotal, hlen, Nat.add_sub_cancel_left]
  omega

/-- One pass over a contiguous buffer. -/
theorem Uip.upperLayerChksum_eq (u : Uip) (hlen : u.uipBuf.be16 Offset.len = UIP_IPH_LEN + len)
    (hcarry : len + proto.toNat < 65536) :
    u.upperLayerChksum proto = rfc1071 (pseudoHeader u.uipBuf proto len ++ load u.uipBuf (UIP_IPH_LEN + UIP_LLH_LEN) len) := by
  have hword := u.uipBuf.be16_lt Offset.len
  have hupper : sub16 (u.uipBuf.be16 Offset.len) UIP_IPH_LEN = len := by
    rw [hlen, sub16_eq (Nat.le_add_right _ _) (hlen ▸ hword), Nat.add_sub_cancel_left]
  simp only [Uip.upperLayerChksum, hupper]
  rw [add16_eq hcarry, chksum_eq _ _ _ hcarry, chksum_eq _ _ _ (Nat.lt_succ_of_le (fold16_le _)), fold16_add, rfc1071_eq,
    wordSum_pseudoHeader (by omega)]
  rfl

namespace Enc28J60Network

/-- The payload lies in the packet from a position on, in one piece: in the
receive ring or in the transmit memory. -/
structure Lies (e : Enc28J60Network) (h : Handle) (p : Nat) (payload : List Byte) : Prop where
  size : (e.packet h).size < 65536
  inside : p + payload.length ≤ (e.packet h).size
  bytes : load e.ram ((e.packet h).begin + p) payload.length = payload
  place : (h = UIP_RECEIVEBUFFERHANDLE ∧ (e.packet h).begin + p + payload.length ≤ RXSTOP_INIT + 1) ∨
    (h ≠ UIP_RECEIVEBUFFERHANDLE ∧ RXSTOP_INIT < (e.packet h).begin + p ∧ (e.packet h).begin + p + payload.length ≤ MEMORY_SIZE)

variable {e : Enc28J60Network} {h : Handle} {p : Nat}

theorem Lies.length_le (hl : Lies e h p payload) : payload.length ≤ MEMORY_SIZE := by
  have hr : RXSTOP_INIT = 2047 := rfl
  have hm : MEMORY_SIZE = 8192 := rfl
  rcases hl.place with ⟨-, hring⟩ | ⟨-, -, htransmit⟩ <;> omega

theorem Lies.readPacket (hl : Lies e h p payload) (hpos : 1 ≤ payload.length) :
    e.readPacket h p payload.length = payload := by
  obtain ⟨hsize, hinside, hbytes, hplace⟩ := hl
  have hr : RXSTOP_INIT = 2047 := rfl
  have hm : MEMORY_SIZE = 8192 := rfl
  have hclip : clip (e.packet h) p payload.length = payload.length := by
    rw [clip, sub16_eq (by omega) hsize]
    split <;> omega
  have hstart : e.readStart h p = (e.packet h).begin + p := by
    simp only [readStart]
    rw [add16_eq (by omega)]
    rcases hplace with ⟨-, hring⟩ | ⟨hother, -⟩
    · rw [if_neg (by omega)]
    · rw [if_neg (fun hh => hother hh.1)]
  simp only [Enc28J60Network.readPacket, setReadPtr, hclip, hstart]
  rw [Nat.mod_eq_of_lt (by omega)]
  rcases hplace with ⟨-, hring⟩ | ⟨-, htransmit, hend⟩
  · rw [readBuffer_ring (by omega), hbytes]
  · rw [readBuffer_eq htransmit hend, hbytes]

end Enc28J60Network

namespace System

variable {s : System}

theorem agree_of_load {b b' : Buf} {n : Nat} (h : load b' 0 n = load b 0 n) : Buf.Agree b b' 0 n := by
  intro i _ hi
  have hbyte := congrArg (fun l => l[i]?) h
  simpa [hi] using hbyte

/-- Only headers: nothing is summed in the packet. -/
theorem upperLayerChksum_headers (hlen : s.uip.uipBuf.be16 Offset.len = UIP_IPH_LEN + s.upperLayerMemlen proto)
    (hcarry : s.upperLayerMemlen proto + proto.toNat < 65536) :
    s.upperLayerChksum proto = some (chksumResult (upperTotal s.uip.uipBuf proto (s.upperLayerMemlen proto) [])) := by
  have hword := s.uip.uipBuf.be16_lt Offset.len
  have hupper : sub16 (s.uip.uipBuf.be16 Offset.len) UIP_IPH_LEN = s.upperLayerMemlen proto := by
    rw [hlen, sub16_eq (Nat.le_add_right _ _) (hlen ▸ hword), Nat.add_sub_cancel_left]
  have hmemlen : s.upperLayerMemlen proto =
    if proto = UIP_PROTO_UDP then UIP_UDPH_LEN
    else ((s.uip.uipBuf Offset.tcpoffset) >>> 4).toNat * 4 := rfl
  simp only [upperLayerChksum, Option.bind_eq_bind, ← hmemlen, hupper]
  rw [if_neg (Nat.lt_irrefl _), add16_eq hcarry, chksum_eq _ _ _ hcarry, chksum_eq _ _ _ (Nat.lt_succ_of_le (fold16_le _)),
    fold16_add, upperTotal, hlen, Nat.add_sub_cancel_left]
  rfl

/-- The headers that are summed in `uip_buf` are an even number of bytes, and few. -/
theorem upperLayerMemlen_even (s : System) (proto : Byte) : ∃ k, s.upperLayerMemlen proto = 2 * k ∧ k ≤ 510 := by
  unfold upperLayerMemlen
  split
  · exact ⟨4, rfl, by decide⟩
  · have hbyte := ((s.uip.uipBuf Offset.tcpoffset) >>> 4).isLt
    exact ⟨((s.uip.uipBuf Offset.tcpoffset) >>> 4).toNat * 2, by omega, by omega⟩

/-- `upper_layer_chksum` over `uip_buf` and the packet is the sum of RFC 1071
over the pseudo header and the segment, as `uip.c` computes it in one pass over
any buffer that holds the frame; the first addition does not carry. -/
theorem upperLayerChksum_split
    (hlen : s.uip.uipBuf.be16 Offset.len = UIP_IPH_LEN + (s.upperLayerMemlen proto + payload.length))
    (hlies : payload ≠ [] → s.net.Lies s.uipPacket (s.payloadPos (s.upperLayerMemlen proto)) payload) :
    s.upperLayerChksum proto = some (rfc1071 (pseudoHeader s.uip.uipBuf proto (s.upperLayerMemlen proto + payload.length) ++
      (load s.uip.uipBuf (UIP_IPH_LEN + UIP_LLH_LEN) (s.upperLayerMemlen proto) ++ payload))) ∧
    (∀ u : Uip, load u.uipBuf 0 (UIP_IPH_LEN + UIP_LLH_LEN + (s.upperLayerMemlen proto + payload.length)) =
        load s.uip.uipBuf 0 (UIP_IPH_LEN + UIP_LLH_LEN + s.upperLayerMemlen proto) ++ payload →
      s.upperLayerChksum proto = some (u.upperLayerChksum proto)) ∧
    s.upperLayerMemlen proto + payload.length + proto.toNat < 65536 := by
  obtain ⟨k, hmem, hk⟩ := s.upperLayerMemlen_even proto
  have hproto := proto.isLt
  have hshort : payload.length ≤ Enc28J60Network.MEMORY_SIZE := by
    cases payload with
    | nil => exact Nat.zero_le _
    | cons x payload => exact (hlies (List.cons_ne_nil x payload)).length_le
  have hm : Enc28J60Network.MEMORY_SIZE = 8192 := rfl
  have hcarry : s.upperLayerMemlen proto + payload.length + proto.toNat < 65536 := by omega
  have hsum : s.upperLayerChksum proto = some (rfc1071 (pseudoHeader s.uip.uipBuf proto (s.upperLayerMemlen proto + payload.length) ++
      (load s.uip.uipBuf (UIP_IPH_LEN + UIP_LLH_LEN) (s.upperLayerMemlen proto) ++ payload))) := by
    rw [rfc1071_eq, ← upperTotal_eq k hmem hlen (by omega)]
    cases payload with
    | nil => exact upperLayerChksum_headers hlen hcarry
    | cons x payload =>
      have hpos : 1 ≤ (x :: payload).length := Nat.succ_pos _
      exact upperLayerChksum_eq rfl hlen hpos (by omega) ((hlies (List.cons_ne_nil x payload)).readPacket hpos)
  refine ⟨hsum, fun u hu => ?_, hcarry⟩
  have hprefix := congrArg (List.take (UIP_IPH_LEN + UIP_LLH_LEN)) hu
  rw [load_take (Nat.le_add_right _ _), List.take_append_of_le_length (by rw [load_length]; exact Nat.le_add_right _ _),
    load_take (Nat.le_add_right _ _)] at hprefix
  have hagree : Buf.Agree s.uip.uipBuf u.uipBuf 0 (UIP_IPH_LEN + UIP_LLH_LEN) := agree_of_load hprefix
  have hsegment := congrArg (List.drop (UIP_IPH_LEN + UIP_LLH_LEN)) hu
  rw [load_drop, List.drop_append_of_le_length (by rw [load_length]; exact Nat.le_add_right _ _), load_drop, Nat.add_sub_cancel_left,
    Nat.add_sub_cancel_left, Nat.zero_add] at hsegment
  have haddr : load u.uipBuf Offset.srcipaddr 8 = load s.uip.uipBuf Offset.srcipaddr 8 :=
    load_agree hagree (by decide) (by decide)
  have hlen' := (hagree.be16 (Nat.zero_le Offset.len) (by decide)).trans hlen
  rw [hsum, u.upperLayerChksum_eq hlen' hcarry, pseudoHeader, pseudoHeader, haddr, hsegment]

/-- A datagram of three bytes. -/
def threeBytes : List Byte :=
  [1, 2, 3, 4, 5, 6, 6, 5, 4, 3, 2, 1, 8, 0] ++
  [0x45, 0, 0, 31, 0, 0, 0, 0, 64, 17, 0x66, 0xcc, 10, 0, 0, 2, 10, 0, 0, 1] ++ [0, 9, 0, 7, 0, 11, 0, 0] ++ [1, 2, 3]

/-- It lies in the receive ring, behind its header there, and in `uip_buf`. -/
def holding (frame : List Byte) : System :=
  let s := System.init (fun _ => 0) [] [1, 2, 3, 4, 5, 6] 0
  { s with
    uip := { s.uip with uipBuf := fun i => frame.getD i 0 }
    net := { s.net with ram := fun a => frame.getD (a - 6) 0, receivePkt := ⟨6, frame.length, NOBLOCK⟩ }
    uipPacket := UIP_RECEIVEBUFFERHANDLE }

theorem upperLayerChksum_split_example : (holding threeBytes).upperLayerChksum UIP_PROTO_UDP =
    some ((holding threeBytes).uip.upperLayerChksum UIP_PROTO_UDP) := by
  have hlies : (holding threeBytes).net.Lies (holding threeBytes).uipPacket
      ((holding threeBytes).payloadPos ((holding threeBytes).upperLayerMemlen UIP_PROTO_UDP)) [1, 2, 3] :=
    ⟨by decide, by decide, by decide, .inl ⟨rfl, by decide⟩⟩
  exact (upperLayerChksum_split (by decide) fun _ => hlies).2.1 _ (by decide)

end System

end UIPEthernet
