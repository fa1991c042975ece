import UIPEthernet.Headers.Checksum
import UIPEthernet.NetworkSend

/-!
# The checksums of a packet

The headers of a segment or datagram are summed in `uip_buf` and its payload
in the packet, at one place in a block to send and at another in the receive
buffer. `Outgoing` is a packet to send; the labels of `uip_process` leave
headers in front of it that pass the checks.
-/

namespace UIPEthernet

open Enc28J60Network Lib

namespace Enc28J60Network

variable {e : Enc28J60Network} {ram : Nat → Byte} {a n p : Nat} {frame : List Byte}

theorem readBuffer_ring (h : a + n ≤ RXSTOP_INIT + 1) : readBuffer ram n a = load ram a n := by
  have hm : MEMORY_SIZE = 8192 := rfl
  have hr : RXSTOP_INIT = 2047 := rfl
  induction n generalizing a with
  | zero => rfl
  | succ n ih =>
    rw [readBuffer, load_succ]
    congr 1
    cases n with
    | zero => rfl
    | succ n =>
      have hnext : nextRead a = a + 1 := by
        rw [nextRead, if_neg (by omega), Nat.mod_eq_of_lt (by omega)]
      rw [hnext]
      exact ih (by omega)

/-- The frame lies in one piece in the receive ring. -/
structure InRing (e : Enc28J60Network) (frame : List Byte) : Prop where
  size : e.receivePkt.size = frame.length
  bytes : load e.ram e.receivePkt.begin frame.length = frame
  unwrapped : e.receivePkt.begin + frame.length ≤ RXSTOP_INIT + 1

theorem InRing.readPacket (h : InRing e frame) (hp : p ≤ frame.length) :
    e.readPacket UIP_RECEIVEBUFFERHANDLE p n = (frame.drop p).take n := by
  obtain ⟨hsize, hbytes, hring⟩ := h
  have hr : RXSTOP_INIT = 2047 := rfl
  have hm : MEMORY_SIZE = 8192 := rfl
  have hpacket : e.packet UIP_RECEIVEBUFFERHANDLE = e.receivePkt := rfl
  have hclip : clip e.receivePkt p n = min n (frame.length - p) := by
    rw [clip, hsize, sub16_eq hp (by omega)]
    split <;> omega
  have hload : (frame.drop p).take n = load e.ram (e.receivePkt.begin + p) (min n (frame.length - p)) := by
    rw [← hbytes, load_drop, load_length]
    rcases Nat.le_total n (frame.length - p) with hle | hle
    · rw [load_take hle, Nat.min_eq_left hle]
    · rw [List.take_of_length_le (by simpa using hle), Nat.min_eq_right hle]
  simp only [Enc28J60Network.readPacket, setReadPtr, hpacket, hclip, hload]
  rcases Nat.lt_or_ge p frame.length with hlt | hge
  · have hstart : e.readStart UIP_RECEIVEBUFFERHANDLE p = e.receivePkt.begin + p := by
      simp only [readStart, hpacket, true_and]
      rw [add16_eq (by omega), if_neg (by omega)]
    rw [hstart, Nat.mod_eq_of_lt (by omega)]
    exact readBuffer_ring (by omega)
  · have hnone : min n (frame.length - p) = 0 := by omega
    rw [hnone]
    rfl

theorem chksum_eq {sum : Nat} {h : Handle} {payload : List Byte} (hsum : sum < 65536)
    (hread : e.readPacket h p payload.length = payload) (hpos : 1 ≤ payload.length) (hmax : payload.length ≤ 65533) :
    e.chksum sum h p payload.length = some (fold16 (sum + wordSum payload)) := by
  have hbytes : readBuffer e.ram (e.setReadPtr h p payload.length).2 (e.setReadPtr h p payload.length).1 = payload :=
    hread
  have hlen := congrArg List.length hbytes
  rw [readBuffer_length] at hlen
  rw [hlen] at hbytes
  simp only [Enc28J60Network.chksum]
  rw [hlen, sub16_eq hpos (by omega), chksumLoop_eq hsum (by omega) (by omega) (by omega),
    show payload.length - 1 + 1 - 0 = payload.length by omega, hbytes]

end Enc28J60Network

namespace System

variable {s s' : System} {proto : Byte} {memlen : Nat} {payload : List Byte}

/-- Where `upper_layer_chksum` finds the payload in the packet. -/
def payloadPos (s : System) (memlen : Nat) : Nat :=
  (if has s.packetstate UIPETHERNET_SENDPACKET then UIP_IPH_LEN + UIP_LLH_LEN + UIP_SENDBUFFER_OFFSET
    else UIP_IPH_LEN + UIP_LLH_LEN) + memlen

theorem upperLayerChksum_eq (hmem : s.upperLayerMemlen proto = memlen)
    (hlen : s.uip.uipBuf.be16 Offset.len = UIP_IPH_LEN + (memlen + payload.length)) (hpos : 1 ≤ payload.length)
    (hmax : memlen + payload.length ≤ 65000)
    (hread : s.net.readPacket s.uipPacket (s.payloadPos memlen) payload.length = payload) :
    s.upperLayerChksum proto = some (chksumResult (upperTotal s.uip.uipBuf proto memlen payload)) := by
  have hproto := proto.isLt
  have hupper : sub16 (s.uip.uipBuf.be16 Offset.len) UIP_IPH_LEN = memlen + payload.length := by
    rw [hlen, sub16_eq (Nat.le_add_right _ _) (by unfold UIP_IPH_LEN; omega), Nat.add_sub_cancel_left]
  have hfold : ∀ n, fold16 n < 65536 := fun n => Nat.lt_succ_of_le (fold16_le n)
  have hmemlen : s.upperLayerMemlen proto =
    if proto = UIP_PROTO_UDP then UIP_UDPH_LEN
    else ((s.uip.uipBuf Offset.tcpoffset) >>> 4).toNat * 4 := rfl
  have haddr : chksum s.uip.uipBuf (memlen + payload.length + proto.toNat) Offset.srcipaddr 8 = fold16 _ :=
    UIPEthernet.chksum_eq _ _ _ (by omega)
  simp only [upperLayerChksum, Option.bind_eq_bind, ← hmemlen, hmem, hupper]
  rw [if_pos (by omega), Nat.add_sub_cancel_left, add16_eq (by omega), haddr,
    UIPEthernet.chksum_eq _ _ _ (hfold _), fold16_add]
  show Option.bind (s.net.chksum _ s.uipPacket (s.payloadPos memlen) payload.length) _ = _
  rw [Enc28J60Network.chksum_eq (hfold _) hread hpos (by omega), fold16_add, upperTotal, hlen, Nat.add_sub_cancel_left]
  rfl

-- ---------------------------------------------------------------------------
-- The headers of a packet to send
-- ---------------------------------------------------------------------------

/-- The headers in a buffer pass the checks with the payload behind them. -/
structure Checks (b : Buf) (proto : Byte) (memlen : Nat) (payload : List Byte) : Prop where
  ip : chksumResult (wordSum (load b UIP_LLH_LEN UIP_IPH_LEN)) = 0xffff
  len : b.be16 Offset.len = UIP_IPH_LEN + (memlen + payload.length)
  upper : chksumResult (upperTotal b proto memlen payload) = 0xffff

theorem load_agree {b b' : Buf} {i j a n : Nat} (h : Buf.Agree b b' i j) (hi : i ≤ a) (hj : a + n ≤ j) :
    load b' a n = load b a n := load_congr fun x hx => h (a + x) (by omega) (by omega)

theorem upperTotal_congr {b b' : Buf} (hlen : b'.be16 Offset.len = b.be16 Offset.len)
    (h : Buf.Agree b b' Offset.srcipaddr (UIP_IPH_LEN + UIP_LLH_LEN + memlen)) :
    upperTotal b' proto memlen payload = upperTotal b proto memlen payload := by
  have haddr : Offset.srcipaddr + 8 = UIP_IPH_LEN + UIP_LLH_LEN := rfl
  rw [upperTotal, upperTotal, hlen, load_agree h (Nat.le_refl _) (haddr ▸ Nat.le_add_right _ _),
    load_agree h (haddr ▸ Nat.le_add_right _ _) (Nat.le_refl _)]

theorem Checks.agree {b b' : Buf} (hc : Checks b proto memlen payload)
    (h : Buf.Agree b b' UIP_LLH_LEN (UIP_IPH_LEN + UIP_LLH_LEN + memlen)) : Checks b' proto memlen payload := by
  have hlen : b'.be16 Offset.len = b.be16 Offset.len :=
    h.be16 (by decide) (show 16 + 1 < 34 + memlen by omega)
  have hupper : Buf.Agree b b' Offset.srcipaddr (UIP_IPH_LEN + UIP_LLH_LEN + memlen) :=
    fun n hi hj => h n (Nat.le_trans (by decide) hi) hj
  refine ⟨?_, hlen.trans hc.len, ?_⟩
  · have hip : load b' UIP_LLH_LEN UIP_IPH_LEN = load b UIP_LLH_LEN UIP_IPH_LEN :=
      load_agree h (Nat.le_refl _) (show 14 + 20 ≤ 34 + memlen by omega)
    rw [hip]
    exact hc.ip
  · rw [upperTotal_congr hlen hupper]
    exact hc.upper

theorem ipSendNolen_len16 : s.ipSendNolen.uip.uipBuf.be16 Offset.len = s.uip.uipBuf.be16 Offset.len := by
  simp [ipSendNolen, mapBuf, send, setFlags, Buf.be16, Buf.putU16, Buf.putBe16, Buf.put, Offset.len, Offset.ipchksum,
    Offset.ipid, Offset.ipoffset, Offset.tos, Offset.vhl]

/-- `ip_send_nolen` makes the IP header pass. -/
theorem ipSendNolen_checks (hlen : s.uip.uipBuf.be16 Offset.len = UIP_IPH_LEN + (memlen + payload.length))
    (hupper : chksumResult (upperTotal s.uip.uipBuf proto memlen payload) = 0xffff) :
    Checks s.ipSendNolen.uip.uipBuf proto memlen payload := by
  refine ⟨?_, ipSendNolen_len16.trans hlen, ?_⟩
  · let b := ((((s.uip.uipBuf.put Offset.vhl 0x45).put Offset.tos 0).putBe16 Offset.ipoffset 0).putBe16
      Offset.ipid (add16 s.uip.ipid 1)).putU16 Offset.ipchksum 0
    have hzero : b.be16 Offset.ipchksum = 0 := Buf.be16_putU16 _ _ 0
    have hsum : ∀ u : Uip, u.uipBuf = b → u.ipchksum = chksumResult (wordSum (load b UIP_LLH_LEN UIP_IPH_LEN)) := by
      intro u hu
      rw [u.ipchksum_eq, hu]
    have hfield := wordSum_putU16 b UIP_LLH_LEN 5 8
      (not16 (chksumResult (wordSum (load b UIP_LLH_LEN UIP_IPH_LEN)))) hzero
    have hbuf : s.ipSendNolen.uip.uipBuf =
        b.putU16 Offset.ipchksum (not16 (chksumResult (wordSum (load b UIP_LLH_LEN UIP_IPH_LEN)))) :=
      congrArg (fun sum => b.putU16 Offset.ipchksum (not16 sum)) (hsum _ rfl)
    rw [hbuf]
    refine (congrArg chksumResult hfield).trans ?_
    exact chksumResult_stored _
  · rw [upperTotal_congr ipSendNolen_len16 (ipSendNolen_agree _)]
    exact hupper

/-- A packet to send: a block with room for the headers and the payload behind
it. -/
structure Outgoing (s : System) (memlen : Nat) (payload c : List Byte) : Prop where
  valid : s.net.Valid
  send : has s.packetstate UIPETHERNET_SENDPACKET
  block : s.net.view s.uipPacket = some c
  hdrlen : s.uipHdrlen = UIP_IPH_LEN + UIP_LLH_LEN + memlen
  bytes : (c.drop (UIP_IPH_LEN + UIP_LLH_LEN + UIP_SENDBUFFER_OFFSET + memlen)).take payload.length = payload
  pos : 1 ≤ payload.length
  room : UIP_IPH_LEN + UIP_LLH_LEN + memlen + payload.length + (UIP_SENDBUFFER_OFFSET + UIP_SENDBUFFER_PADDING) ≤
    c.length

variable {c : List Byte}

theorem Outgoing.only (ho : Outgoing s memlen payload c) (h : OnlyUip s s') : Outgoing s' memlen payload c :=
  ⟨h.net ▸ ho.valid, h.packetstate ▸ ho.send, by rw [h.net, h.uipPacket, ho.block], h.uipHdrlen.trans ho.hdrlen,
    ho.bytes, ho.pos, ho.room⟩

theorem Outgoing.length_lt (ho : Outgoing s memlen payload c) : memlen + payload.length < 8192 := by
  have hb := ho.valid.bounds ho.block
  have hroom := ho.room
  have hm : MEMORY_SIZE = 8192 := rfl
  omega

/-- The sum of a packet to send. -/
theorem Outgoing.sum (ho : Outgoing s memlen payload c) (hmem : s.upperLayerMemlen proto = memlen)
    (hlen : s.uip.uipBuf.be16 Offset.len = UIP_IPH_LEN + (memlen + payload.length)) :
    s.upperLayerChksum proto = some (chksumResult (upperTotal s.uip.uipBuf proto memlen payload)) := by
  have hlt := ho.length_lt
  have hroom := ho.room
  refine upperLayerChksum_eq hmem hlen ho.pos (by omega) ?_
  rw [payloadPos, if_pos ho.send, readPacket_ok ho.valid ho.block (by omega), ho.bytes]

/-- A checksum field that was 0 now holds what completes the total. -/
theorem store_checks {b : Buf} {k m v field : Nat} (hbuf : s.uip.uipBuf = b.putU16 field v)
    (hat : field = UIP_IPH_LEN + UIP_LLH_LEN + 2 * k) (hmem : memlen = 2 * k + (2 + m))
    (hzero : b.be16 field = 0) (hlen : b.be16 Offset.len = UIP_IPH_LEN + (memlen + payload.length))
    (hv : chksumResult (upperTotal b proto memlen payload + htons v) = 0xffff) :
    Checks s.ipSendNolen.uip.uipBuf proto memlen payload := by
  rw [hat] at hbuf hzero
  have hfield := wordSum_putU16 b (UIP_IPH_LEN + UIP_LLH_LEN) k m v hzero
  have hagree : Buf.Agree b (b.putU16 (UIP_IPH_LEN + UIP_LLH_LEN + 2 * k) v) 0 (UIP_IPH_LEN + UIP_LLH_LEN) :=
    Buf.putU16_agree (.inr (Nat.le_add_right _ _))
  rw [← hbuf] at hfield hagree
  have hlen' : s.uip.uipBuf.be16 Offset.len = UIP_IPH_LEN + (memlen + payload.length) :=
    (hagree.be16 (by decide) (by decide)).trans hlen
  have haddr : load s.uip.uipBuf Offset.srcipaddr 8 = load b Offset.srcipaddr 8 :=
    load_agree hagree (by decide) (by decide)
  refine ipSendNolen_checks hlen' ?_
  have htotal : upperTotal s.uip.uipBuf proto memlen payload = upperTotal b proto memlen payload + htons v := by
    rw [upperTotal, upperTotal, hlen', hlen, haddr, hmem, hfield]
    omega
  exact (congrArg chksumResult htotal).trans hv

/-- The TCP header with its checksum, behind `tcp_send_noconn`. -/
theorem tcpSendNoconn_checks (ho : Outgoing s UIP_TCPH_LEN payload c)
    (hlen : s.uip.uipLen = UIP_IPTCPH_LEN + payload.length) (hoffset : s.uip.uipBuf Offset.tcpoffset = 0x50)
    (h : s.tcpSendNoconn = some s') :
    Checks s'.uip.uipBuf UIP_PROTO_TCP UIP_TCPH_LEN payload ∧ s'.uip.uipBuf Offset.tcpoffset = 0x50 := by
  simp only [tcpSendNoconn, Option.bind_eq_bind] at h
  obtain ⟨sum, hsum, h⟩ := Option.bind_eq_some_iff.mp h
  cases h
  have hlt := ho.length_lt
  have htcp : UIP_TCPH_LEN = 20 := rfl
  have hip : UIP_IPH_LEN = 20 := rfl
  let b := (((s.uip.uipBuf.put Offset.ttl UIP_TTL).putBe16 Offset.len s.uip.uipLen).putBe16 Offset.urgp 0).putU16
    Offset.tcpchksum 0
  have hlen16 : b.be16 Offset.len = UIP_IPH_LEN + (UIP_TCPH_LEN + payload.length) := by
    have hput : b.be16 Offset.len = s.uip.uipLen % 65536 := by
      simp [b, Buf.be16, Buf.putU16, Buf.putBe16, Buf.put, Offset.len, Offset.tcpchksum, Offset.urgp, Offset.ttl]
      omega
    rw [hput, hlen, UIP_IPTCPH_LEN]
    omega
  have hoff : b Offset.tcpoffset = 0x50 := by
    rw [← hoffset]
    simp [b, Buf.putU16, Buf.putBe16, Buf.put, Offset.len, Offset.tcpchksum, Offset.urgp, Offset.ttl,
      Offset.tcpoffset]
  have ho₁ : Outgoing (s.mapBuf fun _ => b) UIP_TCPH_LEN payload c := ho.only rfl
  have hmem : (s.mapBuf fun _ => b).upperLayerMemlen UIP_PROTO_TCP = UIP_TCPH_LEN := by
    rw [upperLayerMemlen, if_neg (by decide)]
    show ((b Offset.tcpoffset) >>> 4).toNat * 4 = _
    rw [hoff]
    rfl
  obtain rfl := Option.some.inj ((ho₁.sum hmem hlen16).symm.trans hsum)
  have hzero : b.be16 Offset.tcpchksum = 0 := Buf.be16_putU16 _ _ 0
  refine ⟨store_checks (k := 8) (m := 2) rfl rfl rfl hzero hlen16 (chksumResult_stored _), ?_⟩
  let v := not16 (chksumResult (upperTotal b UIP_PROTO_TCP UIP_TCPH_LEN payload))
  have hagree : Buf.Agree b (b.putU16 Offset.tcpchksum v) 0 Offset.tcpchksum := Buf.putU16_agree (.inr (Nat.le_refl _))
  have hagree' := ipSendNolen_agree (s := s.mapBuf fun _ => b.putU16 Offset.tcpchksum v) Offset.tcpchksum
  refine (hagree' Offset.tcpoffset (by decide) (by decide)).trans ?_
  exact (hagree Offset.tcpoffset (by decide) (by decide)).trans hoff

theorem upperTotal_ne {b : Buf} (hproto : proto ≠ 0) : upperTotal b proto memlen payload ≠ 0 := by
  have hpos : 0 < proto.toNat := Nat.pos_of_ne_zero fun h => hproto (BitVec.eq_of_toNat_eq h)
  unfold upperTotal
  omega

/-- The UDP header with its checksum, behind `udp_send`. -/
theorem udpSend_checks {i : Fin UIP_UDP_CONNS} (ho : Outgoing s UIP_UDPH_LEN payload c)
    (hslen : s.uip.uipSlen = payload.length) (h : s.udpSend i = some s') :
    Checks s'.uip.uipBuf UIP_PROTO_UDP UIP_UDPH_LEN payload ∧ s'.uip.uipBuf.u16 Offset.udpchksum ≠ 0 := by
  have hlt := ho.length_lt
  have hpos := ho.pos
  have hudp : UIP_UDPH_LEN = 8 := rfl
  have hip : UIP_IPH_LEN = 20 := rfl
  simp only [udpSend] at h
  rw [if_neg (by omega)] at h
  obtain ⟨sum, hsum, h⟩ := Option.bind_eq_some_iff.mp h
  cases h
  let conn := s.uipUdpConns i
  let b := ((((((((s.uip.uipBuf.putBe16 Offset.len (add16 s.uip.uipSlen UIP_IPUDPH_LEN)).put Offset.ttl conn.ttl).put
    Offset.proto UIP_PROTO_UDP).putBe16 Offset.udplen (add16 s.uip.uipSlen UIP_UDPH_LEN)).putU16
    Offset.udpchksum 0).putU16 Offset.srcport conn.lport).putU16 Offset.destport conn.rport).putBe32
    Offset.srcipaddr s.uip.uipHostaddr).putBe32 Offset.destipaddr conn.ripaddr
  have hlen16 : b.be16 Offset.len = UIP_IPH_LEN + (UIP_UDPH_LEN + payload.length) := by
    have hput : b.be16 Offset.len = add16 s.uip.uipSlen UIP_IPUDPH_LEN % 65536 := by
      simp [b, Buf.be16, Buf.putU16, Buf.putBe16, Buf.putBe32, Buf.put, Offset.len, Offset.udpchksum, Offset.udplen,
        Offset.ttl, Offset.proto, Offset.srcport, Offset.destport, Offset.srcipaddr, Offset.destipaddr]
      omega
    rw [hput, hslen, add16, UIP_IPUDPH_LEN]
    omega
  have hzero : b.be16 Offset.udpchksum = 0 := by
    simp [b, Buf.be16, Buf.putU16, Buf.putBe16, Buf.putBe32, Buf.put, Offset.udpchksum, Offset.srcport,
      Offset.destport, Offset.srcipaddr, Offset.destipaddr]
  let s₁ := (s.setLen (add16 s.uip.uipSlen UIP_IPUDPH_LEN)).setAppdata (UIP_LLH_LEN + UIP_IPTCPH_LEN)
  have ho₁ : Outgoing (s₁.mapBuf fun _ => b) UIP_UDPH_LEN payload c := ho.only rfl
  obtain rfl := Option.some.inj ((ho₁.sum rfl hlen16).symm.trans hsum)
  let v := udpField (chksumResult (upperTotal b UIP_PROTO_UDP UIP_UDPH_LEN payload))
  have hv : v ≠ 0 ∧ v < 65536 := ⟨udpField_ne _, udpField_lt _⟩
  refine ⟨store_checks (k := 3) (m := 0) rfl rfl rfl hzero hlen16 (chksumResult_udpField (upperTotal_ne (by decide))), ?_⟩
  have hagree := ipSendNolen_agree (s := s₁.mapBuf fun _ => b.putU16 Offset.udpchksum v) (Offset.udpchksum + 2)
  have hkeep : (s₁.mapBuf fun _ => b.putU16 Offset.udpchksum v).ipSendNolen.uip.uipBuf.u16 Offset.udpchksum =
      (b.putU16 Offset.udpchksum v).u16 Offset.udpchksum := by
    rw [Buf.u16, Buf.u16, hagree _ (by decide) (by decide), hagree _ (by decide) (by decide)]
    rfl
  have hread : (b.putU16 Offset.udpchksum v).u16 Offset.udpchksum = v := by
    simp [Buf.u16, Buf.putU16, Buf.put]
    omega
  intro hstored
  exact hv.1 (hread.symm.trans (hkeep.symm.trans hstored))

end System

end UIPEthernet
