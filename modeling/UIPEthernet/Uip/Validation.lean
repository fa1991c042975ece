import UIPEthernet.Uip.RoundTrip
import UIPEthernet.UIPEthernetClass.KeptPacket

/-!
# Validation of received packets

`uip_process` computes the checksum of the upper layer before it looks at the
headers any further. The length that it takes from the IP header is bounded
from above only.
-/

namespace UIPEthernet

open Enc28J60Network Lib

-- ---------------------------------------------------------------------------
-- The loop over the packet
-- ---------------------------------------------------------------------------

namespace Enc28J60Network

variable {e : Enc28J60Network} {ram : Nat → Byte} {last fuel i erdpt sum : Nat}

theorem chksumLoop_ends (hlast : last ≤ 65534) (hi : i ≤ last + 1) (hfuel : last + 1 < i + 2 * fuel) :
    ∃ r, chksumLoop ram last fuel i erdpt sum = some r := by
  induction fuel generalizing i erdpt sum with
  | zero => omega
  | succ fuel ih =>
    rw [chksumLoop]
    split
    · have hnext : add16 i 2 = i + 2 := add16_eq (by omega)
      simp only [hnext]
      exact ih (by omega) (by omega)
    · split
      · exact ⟨_, rfl⟩
      · exact ⟨_, rfl⟩

/-- An even index never meets the last of the odd ones, and passes by it. -/
theorem chksumLoop_never (hi : i % 2 = 0) (hlt : i < 65536) : chksumLoop ram 65535 fuel i erdpt sum = none := by
  induction fuel generalizing i erdpt sum with
  | zero => rfl
  | succ fuel ih =>
    have hless : i < 65535 := by omega
    rw [chksumLoop, if_pos hless]
    exact ih (by simp only [add16]; omega) (by simp only [add16]; omega)

/-- The loop ends exactly where there is a byte to read. -/
theorem chksum_ends (sum : Nat) {h : Handle} {pos len : Nat} (hlen : len < 65536) :
    (∃ r, e.chksum sum h pos len = some r) ↔ 0 < (e.setReadPtr h pos len).2 := by
  have hclip : (e.setReadPtr h pos len).2 < 65536 := by
    simp only [setReadPtr, clip]
    split <;> omega
  simp only [Enc28J60Network.chksum]
  generalize (e.setReadPtr h pos len).2 = n at hclip
  constructor
  · rintro ⟨r, hr⟩
    by_contra hzero
    obtain rfl : n = 0 := by omega
    have hlast : sub16 0 1 = 65535 := by decide
    rw [hlast, chksumLoop_never rfl (by decide)] at hr
    exact absurd hr.symm (Option.some_ne_none r)
  · intro hpos
    rw [sub16_eq hpos hclip]
    exact chksumLoop_ends (by omega) (by omega) (by omega)

end Enc28J60Network

namespace System

variable {s s₁ : System} {proto : Byte}

theorem upperLayerMemlen_le (s : System) (proto : Byte) : s.upperLayerMemlen proto ≤ 60 := by
  have hnibble : ∀ x : Byte, (x >>> 4).toNat ≤ 15 := by decide
  have := hnibble (s.uip.uipBuf Offset.tcpoffset)
  rw [upperLayerMemlen]
  split
  · decide
  · omega

/-- `upper_layer_chksum` ends unless it asks for bytes behind the packet. -/
theorem upperLayerChksum_ends : (∃ sum, s.upperLayerChksum proto = some sum) ↔
    (s.upperLayerMemlen proto < sub16 (s.uip.uipBuf.be16 Offset.len) UIP_IPH_LEN →
      0 < (s.net.setReadPtr s.uipPacket (s.payloadPos (s.upperLayerMemlen proto))
        (sub16 (s.uip.uipBuf.be16 Offset.len) UIP_IPH_LEN - s.upperLayerMemlen proto)).2) := by
  have hmemlen : (if proto = UIP_PROTO_UDP then UIP_UDPH_LEN
    else ((s.uip.uipBuf Offset.tcpoffset) >>> 4).toNat * 4) = s.upperLayerMemlen proto := rfl
  have hpos : (if has s.packetstate UIPETHERNET_SENDPACKET then UIP_IPH_LEN + UIP_LLH_LEN + UIP_SENDBUFFER_OFFSET
    else UIP_IPH_LEN + UIP_LLH_LEN) + s.upperLayerMemlen proto = s.payloadPos (s.upperLayerMemlen proto) := rfl
  have hupper : sub16 (s.uip.uipBuf.be16 Offset.len) UIP_IPH_LEN < 65536 := by
    simp only [sub16]
    omega
  simp only [upperLayerChksum, Option.bind_eq_bind, Option.pure_def, hmemlen, hpos]
  generalize sub16 (s.uip.uipBuf.be16 Offset.len) UIP_IPH_LEN = upper at hupper
  split
  · rename_i hcalls
    rw [← chksum_ends (UIPEthernet.chksum s.uip.uipBuf (UIPEthernet.chksum s.uip.uipBuf
      (add16 upper proto.toNat) Offset.srcipaddr 8) (UIP_IPH_LEN + UIP_LLH_LEN) (s.upperLayerMemlen proto)) (by omega)]
    constructor
    · rintro ⟨sum, h⟩ _
      obtain ⟨r, hr, -⟩ := Option.bind_eq_some_iff.mp h
      exact ⟨r, hr⟩
    · intro h
      obtain ⟨r, hr⟩ := h hcalls
      rw [hr]
      exact ⟨_, rfl⟩
  · rename_i hfits
    exact ⟨fun _ h => absurd h hfits, fun _ => ⟨_, rfl⟩⟩

-- ---------------------------------------------------------------------------
-- The calls of the checksum
-- ---------------------------------------------------------------------------

/-- The datagram whose checksum `uip_process` computes; one without a checksum
is taken as it is. -/
def validatedUdp (s : System) : Option (System × Byte) :=
  if s.uip.uipBuf.u16 Offset.udpchksum ≠ 0 then
    some ((s.setLen (sub16 s.uip.uipLen UIP_IPUDPH_LEN)).setAppdata (UIP_LLH_LEN + UIP_IPUDPH_LEN), UIP_PROTO_UDP)
  else none

/-- The state in which `uip_process` computes the checksum of the packet it is
given, and the protocol; `none` for a packet that does not come to that. -/
def validated (s : System) : Option (System × Byte) :=
  let s := s.initAppdata
  let b := s.uip.uipBuf
  let len := b.be16 Offset.len
  if b Offset.vhl ≠ 0x45 then none
  else if s.uip.uipLen < len then none
  else
    let s := s.setLen len
    if b.be16 Offset.ipoffset &&& 0x3fff ≠ 0 then none
    else if s.uip.uipHostaddr ≠ 0 ∧ b Offset.proto = UIP_PROTO_UDP ∧
        b.be32 Offset.destipaddr = 0xffffffff then s.validatedUdp
    else if s.uip.uipHostaddr ≠ 0 ∧ b.be32 Offset.destipaddr ≠ s.uip.uipHostaddr then none
    else if s.uip.ipchksum ≠ 0xffff then none
    else if b Offset.proto = UIP_PROTO_TCP then some (s, UIP_PROTO_TCP)
    else if b Offset.proto = UIP_PROTO_UDP then s.validatedUdp
    else none

theorem udpInput_validated (h : s.validatedUdp = some (s₁, proto)) :
    ∃ k, s.udpInput = (s₁.upperLayerChksum proto).bind k := by
  rw [validatedUdp] at h
  rw [udpInput]
  generalize ht : (s.setLen (sub16 s.uip.uipLen UIP_IPUDPH_LEN)).setAppdata (UIP_LLH_LEN + UIP_IPUDPH_LEN) = t at h ⊢
  have hbuf : t.uip.uipBuf = s.uip.uipBuf := by rw [← ht, setAppdata_buf, setLen_buf]
  split at h
  · rename_i hchksum
    obtain ⟨rfl, rfl⟩ := Prod.mk.inj (Option.some.inj h)
    simp only [hbuf, if_pos hchksum]
    exact ⟨_, rfl⟩
  · cases h

theorem tcpInput_validated : ∃ k, s.tcpInput = (s.upperLayerChksum UIP_PROTO_TCP).bind k := by
  rw [tcpInput]
  exact ⟨_, rfl⟩

/-- `uip_process` starts with the checksum. -/
theorem uipInput_validated (h : s.validated = some (s₁, proto)) :
    ∃ k, s.uipInput = (s₁.upperLayerChksum proto).bind k := by
  simp only [validated] at h
  rw [uipInput]
  simp only
  split at h
  · cases h
  rename_i hvhl
  split at h
  · cases h
  rename_i hlen
  split at h
  · cases h
  rename_i hoffset
  rw [if_neg hvhl, if_neg hlen, if_neg hoffset]
  split at h
  · rename_i hcast
    rw [if_pos hcast]
    exact udpInput_validated h
  rename_i hcast
  split at h
  · cases h
  rename_i hdest
  split at h
  · cases h
  rename_i hsum
  rw [if_neg hcast, if_neg hdest, if_neg hsum]
  split at h
  · rename_i htcp
    obtain ⟨rfl, rfl⟩ := Prod.mk.inj (Option.some.inj h)
    rw [if_pos htcp]
    exact tcpInput_validated
  rename_i htcp
  split at h
  · rename_i hudp
    rw [if_neg htcp, if_pos hudp]
    exact udpInput_validated h
  · cases h

/-- What the call sees is the packet as it was given, with an IP header that
claims no more than there is. -/
theorem validated_same (h : s.validated = some (s₁, proto)) : s₁.net = s.net ∧ s₁.uipPacket = s.uipPacket ∧
    s₁.packetstate = s.packetstate ∧ s₁.uip.uipBuf = s.uip.uipBuf ∧
    s.uip.uipBuf.be16 Offset.len ≤ s.uip.uipLen := by
  have hudp : ∀ {t t₁ : System} {p : Byte}, t.validatedUdp = some (t₁, p) → t₁.net = t.net ∧ t₁.uipPacket = t.uipPacket ∧
      t₁.packetstate = t.packetstate ∧ t₁.uip.uipBuf = t.uip.uipBuf := by
    intro t t₁ p h
    rw [validatedUdp] at h
    split at h
    · have honly := (setLen_only (s := t) (sub16 t.uip.uipLen UIP_IPUDPH_LEN)).trans
        (setAppdata_only (UIP_LLH_LEN + UIP_IPUDPH_LEN))
      rw [(Prod.mk.inj (Option.some.inj h)).1] at honly
      refine ⟨honly.net, honly.uipPacket, honly.packetstate, ?_⟩
      rw [← (Prod.mk.inj (Option.some.inj h)).1, setAppdata_buf, setLen_buf]
    · cases h
  simp only [validated] at h
  split at h
  · cases h
  split at h
  · cases h
  rename_i hlen
  have hle : s.uip.uipBuf.be16 Offset.len ≤ s.uip.uipLen := Nat.le_of_not_lt hlen
  split at h
  · cases h
  split at h
  · obtain ⟨hnet, hpacket, hstate, hbuf⟩ := hudp h
    exact ⟨hnet, hpacket, hstate, hbuf, hle⟩
  split at h
  · cases h
  split at h
  · cases h
  split at h
  · obtain ⟨rfl, -⟩ := Prod.mk.inj (Option.some.inj h)
    exact ⟨rfl, rfl, rfl, rfl, hle⟩
  split at h
  · obtain ⟨hnet, hpacket, hstate, hbuf⟩ := hudp h
    exact ⟨hnet, hpacket, hstate, hbuf, hle⟩
  · cases h

theorem arpIpin_len (u : Uip) : u.arpIpin.uipLen = sub16 u.uipLen UIP_LLH_LEN := by
  simp only [Uip.arpIpin]
  split
  · rfl
  · rw [Uip.arpUpdate]
    split <;> rfl

theorem loaded_len : s.loaded.uip.uipLen = sub16 (s.net.blockSize s.inPacket) UIP_LLH_LEN := arpIpin_len _

variable (hin : s.inPacket = UIP_RECEIVEBUFFERHANDLE) (h : s.loaded.validated = some (s₁, proto))
include hin h

theorem tickInput_validated (hsize : 0 < s.net.receivePkt.size)
    (htype : s.loaded.uip.uipBuf.be16 Offset.ethType = UIP_ETHTYPE_IP) :
    ∃ k, s.tickInput = (s₁.upperLayerChksum proto).bind k := by
  obtain ⟨k, hk⟩ := uipInput_validated h
  have hsome : s.inPacket ≠ NOBLOCK := by
    rw [hin]
    decide
  have hblock : 0 < s.net.blockSize s.inPacket := by
    rw [hin]
    exact hsize
  rw [tickInput_loaded hsome hblock htype, hk, Option.bind_assoc, Option.map_bind]
  exact ⟨_, rfl⟩

theorem validated_ends (hsize : s.net.receivePkt.size < 65536) : (∃ sum, s₁.upperLayerChksum proto = some sum) ↔
    (s.loaded.uip.uipBuf.be16 Offset.len < UIP_IPH_LEN →
      s.net.receivePkt.size ≠ UIP_LLH_LEN + UIP_IPH_LEN + s.loaded.upperLayerMemlen proto) := by
  obtain ⟨hnet, hpacket, hstate, hbuf, hlen⟩ := validated_same h
  have hmemlen : s.loaded.upperLayerMemlen proto = s₁.upperLayerMemlen proto := by
    rw [upperLayerMemlen, upperLayerMemlen, hbuf]
  have hmem := s₁.upperLayerMemlen_le proto
  have hpos : s₁.payloadPos (s₁.upperLayerMemlen proto) = 34 + s₁.upperLayerMemlen proto := by
    rw [payloadPos, hstate, loaded_packetstate, if_neg (by decide)]
    rfl
  have hmax := s₁.uip.uipBuf.be16_lt Offset.len
  have hblock : s.net.blockSize s.inPacket = s.net.receivePkt.size := by
    rw [hin]
    rfl
  rw [loaded_len, hblock, ← hbuf] at hlen
  have hclip : ∀ n, (s₁.net.setReadPtr s₁.uipPacket (34 + s₁.upperLayerMemlen proto) n).2 =
      clip s.net.receivePkt (34 + s₁.upperLayerMemlen proto) n := by
    intro n
    rw [hnet, hpacket, loaded_net, loaded_packet, hin]
    rfl
  rw [upperLayerChksum_ends, hpos, hclip, hmemlen, ← hbuf]
  generalize s₁.upperLayerMemlen proto = memlen at hmem
  generalize s₁.uip.uipBuf.be16 Offset.len = len at hlen hmax
  generalize s.net.receivePkt = packet at hsize hlen
  have hlow : UIP_LLH_LEN = 14 := rfl
  have hip : UIP_IPH_LEN = 20 := rfl
  simp only [clip, sub16, hlow, hip] at hlen ⊢
  constructor
  · intro hends hshort hat
    have hpositive := hends (by omega)
    split at hpositive <;> omega
  · intro hends hcalls
    split <;> omega

omit hin h

/-- For every frame in the receive buffer of which `tick` has the checksum
computed, the computation ends exactly where the IP header claims its own
length at least, or the frame does not end at the end of the upper header. -/
theorem validation_ends (hin : s.inPacket = UIP_RECEIVEBUFFERHANDLE)
    (hsize : 0 < s.net.receivePkt.size ∧ s.net.receivePkt.size < 65536)
    (htype : s.loaded.uip.uipBuf.be16 Offset.ethType = UIP_ETHTYPE_IP) (h : s.loaded.validated = some (s₁, proto)) :
    (∃ k, s.tickInput = (s₁.upperLayerChksum proto).bind k) ∧
    ((∃ sum, s₁.upperLayerChksum proto = some sum) ↔
      (s.loaded.uip.uipBuf.be16 Offset.len < UIP_IPH_LEN →
        s.net.receivePkt.size ≠ UIP_LLH_LEN + UIP_IPH_LEN + s.loaded.upperLayerMemlen proto)) :=
  ⟨tickInput_validated hin h hsize.1 htype, validated_ends hin h hsize.2⟩

/-- The configured library, and the frame that has come in. -/
def fetching (frame : List Byte) : System :=
  (((System.init (fun _ => 0) [] [1, 2, 3, 4, 5, 6] 0).configure 0x0a000001 0 0xff000000).arrive (ringOf frame) 1).fetch

theorem validation_ends_example : ∃ s₁ sum, (fetching segmentFrame).loaded.validated = some (s₁, UIP_PROTO_TCP) ∧
    s₁.upperLayerChksum UIP_PROTO_TCP = some sum := by
  have hcompute : ((fetching segmentFrame).loaded.validated.map fun x => decide (x.2 = UIP_PROTO_TCP ∧
      (fetching segmentFrame).inPacket = UIP_RECEIVEBUFFERHANDLE ∧
      (0 < (fetching segmentFrame).net.receivePkt.size ∧ (fetching segmentFrame).net.receivePkt.size < 65536) ∧
      (fetching segmentFrame).loaded.uip.uipBuf.be16 Offset.ethType = UIP_ETHTYPE_IP ∧
      UIP_IPH_LEN ≤ (fetching segmentFrame).loaded.uip.uipBuf.be16 Offset.len)) = some true := by
    decide +kernel
  generalize fetching segmentFrame = s at hcompute ⊢
  obtain ⟨⟨s₁, proto⟩, hvalidated, hcompute⟩ := Option.map_eq_some_iff.mp hcompute
  obtain ⟨rfl, hin, hsize, htype, hlen⟩ := of_decide_eq_true hcompute
  obtain ⟨sum, hsum⟩ := (validation_ends hin hsize htype hvalidated).2.mpr fun hshort => absurd hshort (Nat.not_lt.mpr hlen)
  exact ⟨s₁, sum, hvalidated, hsum⟩

/-- An IP packet that claims to be empty, with a TCP header of 28 bytes at the
end of the frame. -/
def emptyPacket : List Byte :=
  [1, 2, 3, 4, 5, 6, 6, 5, 4, 3, 2, 1, 8, 0] ++
  [0x45, 0, 0, 0, 0, 0, 0, 0, 64, 6, 0x66, 0xf6, 10, 0, 0, 2, 10, 0, 0, 1] ++
  [0, 7, 0, 7, 0, 0, 0, 0, 0, 0, 0, 0, 0x70, 0x10, 2, 0, 0, 0, 0, 0] ++ List.replicate 8 1

/-- The computation never ends, and `tick` with it. -/
theorem empty_packet_hangs : (fetching emptyPacket).inPacket = UIP_RECEIVEBUFFERHANDLE ∧
    (∃ s₁, (fetching emptyPacket).loaded.validated = some (s₁, UIP_PROTO_TCP) ∧
      s₁.upperLayerChksum UIP_PROTO_TCP = none) ∧
    (fetching emptyPacket).tickInput = none := by
  have hcompute : ((fetching emptyPacket).loaded.validated.map fun x => decide (x.2 = UIP_PROTO_TCP ∧
      (fetching emptyPacket).inPacket = UIP_RECEIVEBUFFERHANDLE ∧ (fetching emptyPacket).net.receivePkt.size = 62 ∧
      (fetching emptyPacket).loaded.uip.uipBuf.be16 Offset.ethType = UIP_ETHTYPE_IP ∧
      (fetching emptyPacket).loaded.uip.uipBuf.be16 Offset.len = 0 ∧
      (fetching emptyPacket).loaded.upperLayerMemlen UIP_PROTO_TCP = 28)) = some true := by
    decide +kernel
  generalize fetching emptyPacket = s at hcompute ⊢
  obtain ⟨⟨s₁, proto⟩, hvalidated, hcompute⟩ := Option.map_eq_some_iff.mp hcompute
  obtain ⟨rfl, hin, hsize, htype, hlen, hmem⟩ := of_decide_eq_true hcompute
  have hnone : s₁.upperLayerChksum UIP_PROTO_TCP = none := by
    by_contra hsome
    have hends := (validated_ends hin hvalidated (by omega)).mp (Option.ne_none_iff_exists'.mp hsome)
    rw [hlen, hmem, hsize] at hends
    exact hends (by decide) rfl
  obtain ⟨k, hk⟩ := tickInput_validated hin hvalidated (by omega) htype
  refine ⟨hin, ⟨s₁, hvalidated, hnone⟩, ?_⟩
  rw [hk, hnone, Option.bind_none]

end System

end UIPEthernet
